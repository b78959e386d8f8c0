import Choreographr.Protocols.Anthropic
import Choreographr.Protocols.Proofs.BlockReplies
import Mathlib.Data.List.Forall2

/-!
# Streamed Anthropic messages

The texts and the thinking blocks of a stream are those of the whole message
(`Reads`). The calls are not: their list is indexed by the place of the block in
the content, so that every other block before a call leaves an empty one, and the
fragments of the arguments go behind the text of the empty input object.
`streaming_agrees_iff` says when neither happens.
-/

namespace Choreographr.Protocols.Anthropic

open Session

variable {block : ContentBlock} {b : SentBlock}

/-! ## Well-formed streams -/

namespace StreamDelta

def text : StreamDelta → String
  | .textDelta text => text
  | _ => ""

def partialJson : StreamDelta → String
  | .inputJsonDelta partialJson => partialJson
  | _ => ""

def thinking : StreamDelta → String
  | .thinkingDelta thinking => thinking
  | _ => ""

def signature : StreamDelta → String
  | .signatureDelta signature => signature
  | _ => ""

end StreamDelta

/-- One block on the wire. -/
structure SentBlock where
  start : StreamContentBlock
  deltas : List StreamDelta

namespace SentBlock

/-- The fragments of a tool call's arguments. -/
def arguments (sent : SentBlock) : String := String.join (sent.deltas.map StreamDelta.partialJson)

def events (sent : SentBlock) (k : Nat) : List MessagesEvent :=
  .contentBlockStart k sent.start ::
    (sent.deltas.map (.contentBlockDelta k) ++ [.contentBlockStop])

end SentBlock

/-- A block is sent by its start and by deltas of its kind. A tool call starts with
the empty input object, and its fragments, if any, are the text of its input. -/
def SentAs (lib : ValueLib) : ContentBlock → SentBlock → Prop
  | .text text, ⟨.text first, deltas⟩ =>
      (∀ delta ∈ deltas, ∃ piece, delta = .textDelta piece) ∧
        first ++ String.join (deltas.map StreamDelta.text) = text
  | .toolUse id name input, ⟨.toolUse id' name' input', deltas⟩ =>
      id' = id ∧ name' = name ∧ input' = .obj [] ∧
        (∀ delta ∈ deltas, ∃ piece, delta = .inputJsonDelta piece) ∧
        (lib.fromStr (String.join (deltas.map StreamDelta.partialJson)) = some input ∨
          String.join (deltas.map StreamDelta.partialJson) = "" ∧ input = .obj [])
  | .thinking thinking signature, ⟨.thinking first, deltas⟩ =>
      (∀ delta ∈ deltas, (∃ piece, delta = .thinkingDelta piece) ∨
        ∃ piece, delta = .signatureDelta piece) ∧
        first ++ String.join (deltas.map StreamDelta.thinking) = thinking ∧
        String.join (deltas.map StreamDelta.signature) = signature
  | .redactedThinking data, ⟨.redactedThinking data', deltas⟩ => data' = data ∧ deltas = []
  | _, _ => False

/-- The events of the blocks, one block after the other. -/
def blockEvents (k : Nat) : List SentBlock → List MessagesEvent
  | [] => []
  | sent :: rest => sent.events k ++ blockEvents (k + 1) rest

def MessagesEvent.isOther : MessagesEvent → Bool
  | .other => true
  | _ => false

/-- The counts of the whole message, the prompt's at the start and the output's
at the end. -/
def UsageSent (usage : Option UsageInfo) (start : Option AnthropicStreamUsage)
    (outputs : List (Option UInt32)) : Prop :=
  match usage with
  | some u => start = some ⟨u.inputTokens, u.cacheReadInputTokens, u.cacheCreationInputTokens⟩ ∧
      outputs.getLast? = some (some u.outputTokens)
  | none => start = none ∨ outputs.getLast?.getD none = none

/-- A well-formed stream that carries a message, with pings anywhere. -/
def Carries (lib : ValueLib) (response : MessagesResponse) (events : List MessagesEvent) : Prop :=
  ∃ (start : Option AnthropicStreamUsage) (sent : List SentBlock)
    (outputs : List (Option UInt32)),
    List.Forall₂ (SentAs lib) response.content sent ∧ UsageSent response.usage start outputs ∧
    events.filter (fun event => !event.isOther) =
      .messageStart start :: (blockEvents 0 sent ++ (outputs.map .messageDelta ++ [MessagesEvent.messageStop]))

def ContentBlock.isToolUse : ContentBlock → Bool
  | .toolUse .. => true
  | _ => false

/-! ## One block -/

namespace MessagesStreamState

variable {s : MessagesStreamState} {k : Nat}

theorem modify_last {α : Type} {init : List α} (h : init.length = k) (x : α) (f : α → α) :
    (init ++ [x]).modify k f = init ++ [f x] := by
  subst h
  induction init with
  | nil => rfl
  | cons y rest ih => simpa using ih

/-- The calls before place `k`, with empty ones where there is none. -/
def callsBefore (s : MessagesStreamState) (k : Nat) : List StreamToolCall :=
  s.pendingToolCalls ++ List.replicate (k - s.pendingToolCalls.length) ({} : StreamToolCall)

theorem length_callsBefore (h : s.pendingToolCalls.length ≤ k) : (s.callsBefore k).length = k := by
  rw [callsBefore, List.length_append, List.length_replicate]
  omega

theorem grown_eq (h : s.pendingToolCalls.length ≤ k) :
    s.pendingToolCalls ++
        List.replicate (k + 1 - s.pendingToolCalls.length) ({} : StreamToolCall) =
      s.callsBefore k ++ [({} : StreamToolCall)] := by
  rw [callsBefore, List.append_assoc, ← List.replicate_succ',
    show k + 1 - s.pendingToolCalls.length = k - s.pendingToolCalls.length + 1 by omega]

/-- The state with a call at place `k`. -/
def withCall (s : MessagesStreamState) (k : Nat) (call : StreamToolCall) : MessagesStreamState :=
  { s with
    hasAnyOutput := true
    pendingToolCalls := s.callsBefore k ++ [call] }

theorem updateToolCall_open (h : s.pendingToolCalls.length ≤ k) (hk : k < maxToolCalls)
    (update : StreamToolCall → StreamToolCall) :
    s.updateToolCall k update = .ok (s.withCall k (update {})) := by
  unfold updateToolCall
  rw [if_neg (Nat.not_le.mpr hk), grown_eq h]
  simp only [modify_last (length_callsBefore h), withCall]

theorem updateToolCall_again (h : s.pendingToolCalls.length ≤ k) (hk : k < maxToolCalls)
    (call : StreamToolCall) (update : StreamToolCall → StreamToolCall) :
    (s.withCall k call).updateToolCall k update = .ok (s.withCall k (update call)) := by
  have hLength : (s.withCall k call).pendingToolCalls.length = k + 1 := by
    simp [withCall, length_callsBefore h]
  unfold updateToolCall
  rw [if_neg (Nat.not_le.mpr hk), hLength]
  simp only [Nat.sub_self, List.replicate_zero, List.append_nil]
  simp only [withCall, modify_last (length_callsBefore h)]

/-- What a block leaves. -/
def afterBlock (lib : ValueLib) (s : MessagesStreamState) (k : Nat) (sent : SentBlock) :
    ContentBlock → MessagesStreamState
  | .text text => { s with toStreamTexts := s.pushText text }
  | .toolUse id name _ => s.withCall k ⟨id, name, lib.valueToString (.obj []) ++ sent.arguments⟩
  | .thinking thinking signature =>
      { s with
        toStreamTexts := s.pushReasoning thinking
        thinkingBlocks := ⟨s.thinkingBlocks.blocks ++ [.thinking thinking signature], none⟩ }
  | .redactedThinking data =>
      { s with thinkingBlocks := ⟨s.thinkingBlocks.blocks ++ [.redactedThinking data], none⟩ }

/-- Between blocks no thinking block is open, and the calls are those of earlier
places. -/
structure Between (s : MessagesStreamState) (k : Nat) : Prop where
  closed : s.thinkingBlocks.openBlock = none
  length : s.pendingToolCalls.length ≤ k

theorem run_textDeltas (lib : ValueLib) (s : MessagesStreamState) (k : Nat)
    {deltas : List StreamDelta} (h : ∀ delta ∈ deltas, ∃ piece, delta = .textDelta piece)
    (rest : List MessagesEvent) :
    s.run lib (deltas.map (.contentBlockDelta k) ++ rest) =
      run lib { s with toStreamTexts := s.pushText (String.join (deltas.map StreamDelta.text)) }
        rest := by
  induction deltas generalizing s with
  | nil => simp [StreamTexts.pushText]
  | cons delta deltas ih =>
    obtain ⟨piece, rfl⟩ := h delta List.mem_cons_self
    rw [List.map_cons, List.cons_append, run]
    simp only [onDelta, ThinkingBlockAccumulator.onContentBlockDelta, Except.bind]
    rw [ih _ (fun d hd => h d (List.mem_cons_of_mem _ hd))]
    simp only [StreamTexts.pushText_pushText, List.map_cons, String.join_cons, StreamDelta.text]

theorem run_inputDeltas (lib : ValueLib) (hs : s.pendingToolCalls.length ≤ k)
    (hk : k < maxToolCalls) (call : StreamToolCall) {deltas : List StreamDelta}
    (h : ∀ delta ∈ deltas, ∃ piece, delta = .inputJsonDelta piece) (rest : List MessagesEvent) :
    (s.withCall k call).run lib (deltas.map (.contentBlockDelta k) ++ rest) =
      (s.withCall k { call with
        arguments := call.arguments ++ String.join (deltas.map StreamDelta.partialJson) }).run
          lib rest := by
  induction deltas generalizing call with
  | nil => simp
  | cons delta deltas ih =>
    obtain ⟨piece, rfl⟩ := h delta List.mem_cons_self
    have hStep : (s.withCall k call).onDelta k (.inputJsonDelta piece) =
        .ok (s.withCall k { call with arguments := call.arguments ++ piece }) :=
      updateToolCall_again hs hk call _
    rw [List.map_cons, List.cons_append, run, hStep]
    simp only [Except.bind]
    rw [ih _ (fun d hd => h d (List.mem_cons_of_mem _ hd))]
    simp only [List.map_cons, String.join_cons, StreamDelta.partialJson, String.append_assoc]

/-- The state inside a thinking block. -/
def thinkingSoFar (s : MessagesStreamState) (thinking signature : String) : MessagesStreamState :=
  { s with
    toStreamTexts := s.pushReasoning thinking
    thinkingBlocks := ⟨s.thinkingBlocks.blocks, some ⟨thinking, signature⟩⟩ }

theorem run_thinkingDeltas (lib : ValueLib) (s : MessagesStreamState) (k : Nat)
    (thinking signature : String) {deltas : List StreamDelta}
    (h : ∀ delta ∈ deltas, (∃ piece, delta = .thinkingDelta piece) ∨
      ∃ piece, delta = .signatureDelta piece) (rest : List MessagesEvent) :
    (s.thinkingSoFar thinking signature).run lib (deltas.map (.contentBlockDelta k) ++ rest) =
      (s.thinkingSoFar (thinking ++ String.join (deltas.map StreamDelta.thinking))
        (signature ++ String.join (deltas.map StreamDelta.signature))).run lib rest := by
  induction deltas generalizing thinking signature with
  | nil => simp
  | cons delta deltas ih =>
    have hRest := fun d hd => h d (List.mem_cons_of_mem delta hd)
    rw [List.map_cons, List.cons_append, run]
    rcases h delta List.mem_cons_self with ⟨piece, rfl⟩ | ⟨piece, rfl⟩
    · have hStep : (s.thinkingSoFar thinking signature).onDelta k (.thinkingDelta piece) =
          .ok (s.thinkingSoFar (thinking ++ piece) signature) := by
        simp [onDelta, thinkingSoFar, ThinkingBlockAccumulator.onContentBlockDelta,
          StreamTexts.pushReasoning_pushReasoning]
      rw [hStep]
      simp only [Except.bind]
      rw [ih _ _ hRest]
      simp only [List.map_cons, String.join_cons, StreamDelta.thinking, StreamDelta.signature,
        String.append_assoc, String.empty_append]
    · have hStep : (s.thinkingSoFar thinking signature).onDelta k (.signatureDelta piece) =
          .ok (s.thinkingSoFar thinking (signature ++ piece)) := rfl
      rw [hStep]
      simp only [Except.bind]
      rw [ih _ _ hRest]
      simp only [List.map_cons, String.join_cons, StreamDelta.thinking, StreamDelta.signature,
        String.append_assoc, String.empty_append]

/-- A block that is no call past the cap brings what it has. -/
theorem run_block (lib : ValueLib) (h : s.Between k) {sent : SentBlock}
    (hSent : SentAs lib block sent) (hRoom : block.isToolUse = true → k < maxToolCalls)
    (rest : List MessagesEvent) :
    s.run lib (sent.events k ++ rest) = (s.afterBlock lib k sent block).run lib rest := by
  have hStop : s.thinkingBlocks.onContentBlockStop = s.thinkingBlocks := by
    simp only [ThinkingBlockAccumulator.onContentBlockStop, h.closed]
  obtain ⟨start, deltas⟩ := sent
  rw [SentBlock.events, List.cons_append, List.append_assoc, List.singleton_append, run]
  cases block with
  | text text =>
    cases start with
    | text first =>
      obtain ⟨hDeltas, rfl⟩ := hSent
      simp only [onStart, ThinkingBlockAccumulator.onContentBlockStart, Except.bind]
      rw [run_textDeltas lib _ k hDeltas, run]
      simp only [StreamTexts.pushText_pushText, hStop, afterBlock]
    | toolUse | thinking | redactedThinking => exact hSent.elim
  | toolUse id name input =>
    cases start with
    | toolUse id' name' input' =>
      obtain ⟨rfl, rfl, rfl, hDeltas, _⟩ := hSent
      have hk := hRoom rfl
      have hOpen : s.onStart lib k (.toolUse id' name' (.obj [])) =
          .ok (s.withCall k ⟨id', name', lib.valueToString (.obj [])⟩) :=
        updateToolCall_open h.length hk _
      rw [hOpen]
      simp only [Except.bind]
      rw [run_inputDeltas lib h.length hk _ hDeltas, run]
      simp only [withCall, hStop, afterBlock, SentBlock.arguments]
    | text | thinking | redactedThinking => exact hSent.elim
  | thinking thinking signature =>
    cases start with
    | thinking first =>
      obtain ⟨hDeltas, rfl, rfl⟩ := hSent
      have hOpen : s.onStart lib k (.thinking first) = .ok (s.thinkingSoFar first "") := rfl
      rw [hOpen]
      simp only [Except.bind]
      rw [run_thinkingDeltas lib s k first "" hDeltas, run]
      simp only [thinkingSoFar, ThinkingBlockAccumulator.onContentBlockStop, String.empty_append,
        afterBlock]
    | text | toolUse | redactedThinking => exact hSent.elim
  | redactedThinking data =>
    cases start with
    | redactedThinking data' =>
      obtain ⟨rfl, rfl⟩ := hSent
      simp only [onStart, ThinkingBlockAccumulator.onContentBlockStart, Except.bind, List.map_nil,
        List.nil_append]
      rw [run]
      simp only [ThinkingBlockAccumulator.onContentBlockStop, h.closed, afterBlock]
    | text | toolUse | thinking => exact hSent.elim

theorem run_block_exceeds (lib : ValueLib) {sent : SentBlock} (hSent : SentAs lib block sent)
    (hTool : block.isToolUse = true) (hk : maxToolCalls ≤ k) (rest : List MessagesEvent) :
    s.run lib (sent.events k ++ rest) = .error (indexExceeds k) := by
  obtain ⟨start, deltas⟩ := sent
  rw [SentBlock.events, List.cons_append, run]
  cases block with
  | toolUse id name input =>
    cases start with
    | toolUse id' name' input' =>
      have hOpen : s.onStart lib k (.toolUse id' name' input') = .error (indexExceeds k) :=
        if_pos hk
      rw [hOpen]
      rfl
    | text | thinking | redactedThinking => exact hSent.elim
  | text | thinking | redactedThinking => cases hTool

theorem Between.afterBlock (lib : ValueLib) (h : s.Between k) (sent : SentBlock)
    (block : ContentBlock) : (s.afterBlock lib k sent block).Between (k + 1) := by
  have hLength := Nat.le_succ_of_le h.length
  cases block with
  | text | thinking | redactedThinking => exact ⟨by first | rfl | exact h.closed, hLength⟩
  | toolUse =>
    refine ⟨h.closed, ?_⟩
    simp [MessagesStreamState.afterBlock, withCall, length_callsBefore h.length]

end MessagesStreamState

/-! ## All blocks -/

namespace MessagesStreamState

/-- What the blocks leave. -/
def afterBlocks (lib : ValueLib) (s : MessagesStreamState) (k : Nat) :
    List ContentBlock → List SentBlock → MessagesStreamState
  | block :: content, sent :: rest =>
      afterBlocks lib (s.afterBlock lib k sent block) (k + 1) content rest
  | _, _ => s

/-- Every call is at a place below the cap. -/
def Room (k : Nat) (content : List ContentBlock) : Prop :=
  ∀ (j : Nat) block, content[j]? = some block → block.isToolUse = true → k + j < maxToolCalls

variable {s : MessagesStreamState} {k : Nat} {content : List ContentBlock} {sent : List SentBlock}
  (lib : ValueLib)

theorem run_blocks (h : s.Between k) (hSent : List.Forall₂ (SentAs lib) content sent)
    (hRoom : Room k content) (rest : List MessagesEvent) :
    s.run lib (blockEvents k sent ++ rest) = (s.afterBlocks lib k content sent).run lib rest := by
  induction hSent generalizing s k with
  | nil => rfl
  | cons hBlock hTail ih =>
    rename_i block b content sent
    have hFirst : block.isToolUse = true → k < maxToolCalls := hRoom 0 block rfl
    have hLater : Room (k + 1) content := by
      intro j block hj hTool
      have := hRoom (j + 1) block hj hTool
      omega
    rw [blockEvents, List.append_assoc, run_block lib h hBlock hFirst,
      ih (h.afterBlock lib b block) hLater, afterBlocks]

theorem run_blocks_exceeds (h : s.Between k) (hSent : List.Forall₂ (SentAs lib) content sent)
    (hRoom : ¬Room k content) (rest : List MessagesEvent) :
    ∃ index, s.run lib (blockEvents k sent ++ rest) = .error (indexExceeds index) := by
  induction hSent generalizing s k with
  | nil => exact absurd (by simp [Room]) hRoom
  | cons hBlock hTail ih =>
    rename_i block b content sent
    rw [blockEvents, List.append_assoc]
    by_cases hFirst : block.isToolUse = true → k < maxToolCalls
    · have hLater : ¬Room (k + 1) content := by
        intro hLater
        apply hRoom
        intro j block' hj hTool
        cases j with
        | zero =>
          cases hj
          exact hFirst hTool
        | succ j =>
          have := hLater j block' hj hTool
          omega
      rw [run_block lib h hBlock hFirst]
      exact ih (h.afterBlock lib b block) hLater
    · have hTool : block.isToolUse = true := by
        by_contra hNot
        exact hFirst fun hTool => absurd hTool hNot
      have hk : maxToolCalls ≤ k := by
        by_contra hNot
        exact hFirst fun _ => Nat.not_le.mp hNot
      exact ⟨k, run_block_exceeds lib hBlock hTool hk _⟩

/-- The state has the texts and the thinking blocks of the blocks read. -/
structure Reads (s : MessagesStreamState) (parts : MessageParts) : Prop where
  text : s.fullText = String.join parts.textParts
  reasoning : s.fullReasoning = String.join parts.reasoningParts
  blocks : s.thinkingBlocks = ⟨parts.artifactBlocks, none⟩
  output : s.toStreamTexts.Tracks (s.pendingToolCalls ≠ [])
  calls : s.pendingToolCalls = [] ↔ parts.toolCalls = []

theorem Reads.afterBlock {parts : MessageParts} (h : s.Reads parts) (k : Nat) (sent : SentBlock)
    (block : ContentBlock) : (s.afterBlock lib k sent block).Reads (parts.push lib block) := by
  cases block with
  | text text =>
    refine ⟨?_, ?_, h.blocks, h.output.pushText text, h.calls⟩
    · simp [MessagesStreamState.afterBlock, MessageParts.push, h.text]
    · simp [MessagesStreamState.afterBlock, MessageParts.push, h.reasoning]
  | toolUse id name input =>
    refine ⟨h.text, h.reasoning, h.blocks, ?_, ?_⟩
    · simp [MessagesStreamState.afterBlock, withCall, StreamTexts.Tracks]
    · simp [MessagesStreamState.afterBlock, withCall, MessageParts.push]
  | thinking thinking signature =>
    refine ⟨?_, ?_, ?_, h.output.pushReasoning thinking, h.calls⟩
    · simp [MessagesStreamState.afterBlock, MessageParts.push, h.text]
    · simp [MessagesStreamState.afterBlock, MessageParts.push, h.reasoning]
    · simp [MessagesStreamState.afterBlock, MessageParts.push, h.blocks]
  | redactedThinking data =>
    refine ⟨h.text, h.reasoning, ?_, h.output, h.calls⟩
    simp [MessagesStreamState.afterBlock, MessageParts.push, h.blocks]

theorem Reads.afterBlocks {parts : MessageParts} (h : s.Reads parts)
    (hSent : List.Forall₂ (SentAs lib) content sent) (k : Nat) :
    (s.afterBlocks lib k content sent).Reads (content.foldl (MessageParts.push lib) parts) := by
  induction hSent generalizing s k parts with
  | nil => exact h
  | cons hBlock hTail ih => exact ih (h.afterBlock lib k _ _) (k + 1)

theorem afterBlocks_counts (hSent : List.Forall₂ (SentAs lib) content sent)
    (s : MessagesStreamState) (k : Nat) :
    (s.afterBlocks lib k content sent).inputTokens = s.inputTokens ∧
      (s.afterBlocks lib k content sent).outputTokens = s.outputTokens ∧
      (s.afterBlocks lib k content sent).cachedTokens = s.cachedTokens ∧
      (s.afterBlocks lib k content sent).cacheWriteTokens = s.cacheWriteTokens := by
  induction hSent generalizing s k with
  | nil => exact ⟨rfl, rfl, rfl, rfl⟩
  | @cons block b content sent _ _ ih =>
    have hRest := ih (s.afterBlock lib k b block) (k + 1)
    cases block <;> exact hRest

/-! ## Calls -/

/-- No other block stands before a call. -/
def CallsFirst (content : List ContentBlock) : Prop :=
  content.Pairwise fun a b => b.isToolUse = true → a.isToolUse = true

/-- The call a sent block leaves at its place. -/
def sentCall (lib : ValueLib) (sent : SentBlock) : ContentBlock → Option StreamToolCall
  | .toolUse id name _ => some ⟨id, name, lib.valueToString (.obj []) ++ sent.arguments⟩
  | _ => none

def toolCount (content : List ContentBlock) : Nat := content.countP ContentBlock.isToolUse

theorem afterBlock_of_call {call : StreamToolCall} (h : sentCall lib b block = some call) :
    (s.afterBlock lib k b block).pendingToolCalls = s.callsBefore k ++ [call] := by
  cases block with
  | toolUse =>
    cases h
    rfl
  | text | thinking | redactedThinking => cases h

theorem afterBlock_of_other (h : sentCall lib b block = none) :
    (s.afterBlock lib k b block).pendingToolCalls = s.pendingToolCalls := by
  cases block with
  | toolUse => cases h
  | text | thinking | redactedThinking => rfl

theorem isSome_sentCall (b : SentBlock) (block : ContentBlock) :
    (sentCall lib b block).isSome = block.isToolUse := by
  cases block <;> rfl

/-- The calls the blocks leave, without empty ones. -/
def sentCalls (lib : ValueLib) : List ContentBlock → List SentBlock → List StreamToolCall
  | block :: content, b :: sent => (sentCall lib b block).toList ++ sentCalls lib content sent
  | _, _ => []

/-- Where calls come first, the list has one for each. -/
theorem pendingToolCalls_eq (hSent : List.Forall₂ (SentAs lib) content sent)
    (hFirst : CallsFirst content)
    (hLength : s.pendingToolCalls.length = k ∨ ∀ block ∈ content, block.isToolUse = false) :
    (s.afterBlocks lib k content sent).pendingToolCalls =
      s.pendingToolCalls ++ sentCalls lib content sent := by
  induction hSent generalizing s k with
  | nil => simp [afterBlocks, sentCalls]
  | @cons block b content sent _ _ ih =>
    obtain ⟨hBlock, hLater⟩ := List.pairwise_cons.mp hFirst
    have hTool := isSome_sentCall lib b block
    rw [afterBlocks, sentCalls]
    cases hCall : sentCall lib b block with
    | none =>
      rw [hCall] at hTool
      have hNone : ∀ other ∈ content, other.isToolUse = false := by
        intro other hOther
        rw [← Bool.not_eq_true]
        intro hIs
        have := hBlock other hOther hIs
        rw [← hTool] at this
        cases this
      rw [ih hLater (Or.inr hNone), afterBlock_of_other lib hCall]
      simp
    | some call =>
      rw [hCall] at hTool
      rcases hLength with hLength | hNone
      · have hBefore : s.callsBefore k = s.pendingToolCalls := by
          simp [callsBefore, hLength]
        have hNext : (s.afterBlock lib k b block).pendingToolCalls.length = k + 1 := by
          rw [afterBlock_of_call lib hCall, hBefore]
          simp [hLength]
        rw [ih hLater (Or.inl hNext), afterBlock_of_call lib hCall, hBefore]
        simp
      · have := hNone block List.mem_cons_self
        rw [← hTool] at this
        cases this

theorem callsFirst_cons (block : ContentBlock) (content : List ContentBlock) :
    CallsFirst (block :: content) ↔
      (block.isToolUse = true ∨ toolCount content = 0) ∧ CallsFirst content := by
  rw [CallsFirst, List.pairwise_cons]
  apply and_congr_left
  intro _
  by_cases hTool : block.isToolUse = true
  · simp [hTool]
  · simp [hTool, toolCount, List.countP_eq_zero]

/-- There are at least as many calls in the list as in the content, and more if
another block stands before one. -/
theorem length_pendingToolCalls (hSent : List.Forall₂ (SentAs lib) content sent)
    (hLength : s.pendingToolCalls.length ≤ k) :
    s.pendingToolCalls.length + toolCount content ≤
        (s.afterBlocks lib k content sent).pendingToolCalls.length ∧
      (s.pendingToolCalls.length < k ∧ 0 < toolCount content ∨ ¬CallsFirst content →
        s.pendingToolCalls.length + toolCount content <
          (s.afterBlocks lib k content sent).pendingToolCalls.length) := by
  induction hSent generalizing s k with
  | nil => simp [afterBlocks, toolCount, CallsFirst]
  | @cons block b content sent _ _ ih =>
    have hTool := isSome_sentCall lib b block
    rw [afterBlocks, callsFirst_cons]
    cases hCall : sentCall lib b block with
    | none =>
      rw [hCall] at hTool
      have hCount : toolCount (block :: content) = toolCount content := by
        simp [toolCount, ← hTool]
      have hSame := afterBlock_of_other (s := s) (k := k) lib hCall
      obtain ⟨hLe, hLt⟩ := ih (s := s.afterBlock lib k b block) (k := k + 1)
        (by rw [hSame]; omega)
      rw [hSame] at hLe hLt
      rw [hCount]
      refine ⟨hLe, ?_⟩
      intro hGap
      apply hLt
      by_cases hZero : toolCount content = 0
      · right
        simpa [hZero] using hGap
      · left
        omega
    | some call =>
      rw [hCall] at hTool
      have hCount : toolCount (block :: content) = toolCount content + 1 := by
        simp [toolCount, ← hTool]
      have hNext : (s.afterBlock lib k b block).pendingToolCalls.length = k + 1 := by
        rw [afterBlock_of_call lib hCall]
        simp [length_callsBefore hLength]
      obtain ⟨hLe, hLt⟩ := ih (s := s.afterBlock lib k b block) (k := k + 1)
        (Nat.le_of_eq hNext)
      rw [hNext] at hLe hLt
      rw [hCount]
      refine ⟨by omega, ?_⟩
      rintro (⟨hGap, _⟩ | hNot)
      · omega
      · have hRest : ¬CallsFirst content := by
          intro hFirst
          exact hNot ⟨Or.inl hTool.symm, hFirst⟩
        have := hLt (Or.inr hRest)
        omega

/-! ## The whole stream -/

theorem run_filter (s : MessagesStreamState) (events : List MessagesEvent) :
    s.run lib (events.filter fun event => !event.isOther) = s.run lib events := by
  induction events generalizing s with
  | nil => rfl
  | cons event rest ih =>
    cases event with
    | other => exact ih s
    | messageStop => rfl
    | contentBlockStart | contentBlockDelta | contentBlockStop | messageDelta =>
      rw [List.filter_cons_of_pos rfl]
      simp only [run, ih]
    | messageStart usage =>
      rw [List.filter_cons_of_pos rfl]
      cases usage <;> simp only [run, ih]

theorem run_outputs (s : MessagesStreamState) (outputs : List (Option UInt32)) :
    s.run lib (outputs.map .messageDelta ++ [MessagesEvent.messageStop]) =
      .ok { s with outputTokens := outputs.getLast?.getD s.outputTokens } := by
  induction outputs generalizing s with
  | nil => rfl
  | cons output rest ih =>
    rw [List.map_cons, List.cons_append, run, ih, List.getLast?_cons]
    cases rest.getLast? <;> rfl

/-- The state after the start of the message. -/
def started (start : Option AnthropicStreamUsage) : MessagesStreamState where
  inputTokens := start.map AnthropicStreamUsage.inputTokens
  cachedTokens := (start.map AnthropicStreamUsage.cacheReadInputTokens).getD 0
  cacheWriteTokens := (start.map AnthropicStreamUsage.cacheCreationInputTokens).getD 0

theorem run_messageStart (start : Option AnthropicStreamUsage) (rest : List MessagesEvent) :
    run lib {} (.messageStart start :: rest) = (started start).run lib rest := by
  cases start <;> rfl

theorem started_reads (start : Option AnthropicStreamUsage) : (started start).Reads {} where
  text := rfl
  reasoning := rfl
  blocks := rfl
  output := by simp [StreamTexts.Tracks, started]
  calls := by simp [started]

theorem usage_eq {usage : Option UsageInfo} {start : Option AnthropicStreamUsage}
    {outputs : List (Option UInt32)} (h : UsageSent usage start outputs)
    (hInput : s.inputTokens = start.map AnthropicStreamUsage.inputTokens)
    (hOutput : s.outputTokens = outputs.getLast?.getD none)
    (hCached : s.cachedTokens = (start.map AnthropicStreamUsage.cacheReadInputTokens).getD 0)
    (hWrite : s.cacheWriteTokens =
      (start.map AnthropicStreamUsage.cacheCreationInputTokens).getD 0) :
    s.usage = usage.map UsageInfo.toTokenUsage := by
  unfold MessagesStreamState.usage
  rw [hInput, hOutput, hCached, hWrite]
  cases usage with
  | some u =>
    obtain ⟨rfl, hLast⟩ := h
    rw [hLast]
    rfl
  | none =>
    rcases h with rfl | hNone
    · rfl
    · rw [hNone]
      cases start <;> rfl

end MessagesStreamState

/-! ## Agreement -/

/-- JSON whitespace. -/
def isBlank (text : String) : Bool :=
  text.toList.all fun c => c = ' ' ∨ c = '\t' ∨ c = '\n' ∨ c = '\r'

/-- What the adapter relies on of `serde_json`: how the empty object is written
and read, that behind a value only whitespace may follow, and that whitespace is
no value. -/
structure Lawful (lib : ValueLib) : Prop where
  write_empty : lib.valueToString (.obj []) = "\x7b\x7d"
  read_empty : lib.fromStr "\x7b\x7d" = some (.obj [])
  read_trailing : ∀ text, (lib.fromStr ("\x7b\x7d" ++ text)).isSome → isBlank text = true
  read_blank : ∀ text, isBlank text = true → lib.fromStr text = none

/-- The same call, with arguments that are the same JSON value. -/
structure SameCall (lib : ValueLib) (a b : ChatToolCall) : Prop where
  id : a.id = b.id
  name : a.name = b.name
  arguments : ∃ value, lib.fromStr a.argumentsJson = some value ∧
    lib.fromStr b.argumentsJson = some value
  caller : a.caller = b.caller

def StreamToolCall.toCall (call : StreamToolCall) : ChatToolCall :=
  ⟨call.id, call.name, call.arguments, none⟩

def ContentBlock.toCall (lib : ValueLib) : ContentBlock → Option ChatToolCall
  | .toolUse id name input => some ⟨id, name, lib.valueToString input, none⟩
  | _ => none

section Calls

variable {lib : ValueLib} {content : List ContentBlock} {sent : List SentBlock}

/-- A streamed call has its arguments exactly if they do not come in fragments. -/
theorem sameCall_iff (hLib : Lawful lib) {id name : String} {input : Json}
    (h : SentAs lib (.toolUse id name input) b) :
    SameCall lib (StreamToolCall.toCall ⟨id, name, lib.valueToString (.obj []) ++ b.arguments⟩)
        ⟨id, name, lib.valueToString input, none⟩ ↔ b.arguments = "" := by
  obtain ⟨start, deltas⟩ := b
  cases start with
  | text | thinking | redactedThinking => exact h.elim
  | toolUse id' name' input' =>
    obtain ⟨_, _, _, _, hInput⟩ := h
    rw [hLib.write_empty]
    constructor
    · rintro ⟨_, _, ⟨value, hStream, _⟩, _⟩
      have hBlank := hLib.read_trailing _ (Option.isSome_of_eq_some hStream)
      rcases hInput with hParse | ⟨hEmpty, _⟩
      · have hNone := hLib.read_blank _ hBlank
        rw [SentBlock.arguments, hParse] at hNone
        cases hNone
      · exact hEmpty
    · intro hEmpty
      have hObject : input = .obj [] := by
        rcases hInput with hParse | ⟨_, hObject⟩
        · have hJoin : String.join (deltas.map StreamDelta.partialJson) = "" := hEmpty
          rw [hJoin, hLib.read_blank "" rfl] at hParse
          cases hParse
        · exact hObject
      refine ⟨rfl, rfl, ⟨.obj [], ?_, ?_⟩, rfl⟩
      · rw [StreamToolCall.toCall, hEmpty]
        simpa using hLib.read_empty
      · rw [hObject, hLib.write_empty]
        exact hLib.read_empty

/-- Only a tool call has arguments. -/
theorem arguments_eq_empty (h : SentAs lib block b) (hTool : block.isToolUse = false) :
    b.arguments = "" := by
  obtain ⟨start, deltas⟩ := b
  rw [SentBlock.arguments, join_eq_empty_iff]
  rintro _ hPiece
  obtain ⟨delta, hDelta, rfl⟩ := List.mem_map.mp hPiece
  cases block with
  | toolUse => cases hTool
  | text =>
    cases start with
    | text =>
      obtain ⟨piece, rfl⟩ := h.1 delta hDelta
      rfl
    | toolUse | thinking | redactedThinking => exact h.elim
  | thinking =>
    cases start with
    | thinking =>
      rcases h.1 delta hDelta with ⟨piece, rfl⟩ | ⟨piece, rfl⟩ <;> rfl
    | text | toolUse | redactedThinking => exact h.elim
  | redactedThinking =>
    cases start with
    | redactedThinking =>
      obtain ⟨_, rfl⟩ := h
      cases hDelta
    | text | toolUse | thinking => exact h.elim

theorem sameCalls_iff (hLib : Lawful lib) (h : List.Forall₂ (SentAs lib) content sent) :
    List.Forall₂ (SameCall lib)
        ((MessagesStreamState.sentCalls lib content sent).map StreamToolCall.toCall)
        (content.filterMap (ContentBlock.toCall lib)) ↔
      ∀ b ∈ sent, b.arguments = "" := by
  induction h with
  | nil => simp [MessagesStreamState.sentCalls]
  | @cons block b content sent hBlock _ ih =>
    cases block with
    | toolUse id name input =>
      simp only [MessagesStreamState.sentCalls, MessagesStreamState.sentCall, Option.toList_some,
        List.singleton_append, List.map_cons, List.filterMap_cons, ContentBlock.toCall,
        List.forall₂_cons, sameCall_iff hLib hBlock, ih, List.forall_mem_cons]
    | text | thinking | redactedThinking =>
      simp only [MessagesStreamState.sentCalls, MessagesStreamState.sentCall, Option.toList_none,
        List.nil_append, List.filterMap_cons, ContentBlock.toCall, ih, List.forall_mem_cons,
        arguments_eq_empty hBlock rfl, true_and]

end Calls

/-! ### The message -/

namespace ContentBlock

def textPart : ContentBlock → Option String
  | .text part => some part
  | _ => none

def thinkingPart : ContentBlock → Option String
  | .thinking part _ => some part
  | _ => none

end ContentBlock

theorem foldl_push (lib : ValueLib) (content : List ContentBlock) (parts : MessageParts) :
    (content.foldl (MessageParts.push lib) parts).textParts =
        parts.textParts ++ content.filterMap ContentBlock.textPart ∧
      (content.foldl (MessageParts.push lib) parts).reasoningParts =
        parts.reasoningParts ++ content.filterMap ContentBlock.thinkingPart ∧
      (content.foldl (MessageParts.push lib) parts).toolCalls =
        parts.toolCalls ++ content.filterMap (ContentBlock.toCall lib) := by
  induction content generalizing parts with
  | nil => simp
  | cons block rest ih =>
    obtain ⟨hText, hReasoning, hCalls⟩ := ih (parts.push lib block)
    rw [List.foldl_cons, hText, hReasoning, hCalls]
    cases block <;> simp [MessageParts.push, List.filterMap_cons, ContentBlock.textPart,
      ContentBlock.thinkingPart, ContentBlock.toCall]

theorem length_toCall (lib : ValueLib) (content : List ContentBlock) :
    (content.filterMap (ContentBlock.toCall lib)).length =
      MessagesStreamState.toolCount content := by
  induction content with
  | nil => rfl
  | cons block rest ih =>
    unfold MessagesStreamState.toolCount at ih ⊢
    cases block <;> simpa [List.filterMap_cons, List.countP_cons, ContentBlock.toCall,
      ContentBlock.isToolUse] using ih

/-- The argument text an event brings. -/
def MessagesEvent.partialJson : MessagesEvent → String
  | .contentBlockDelta _ delta => delta.partialJson
  | _ => ""

/-- What a stream must be like for its turn to be the turn of the message. -/
structure StreamsWell (response : MessagesResponse) (events : List MessagesEvent) : Prop where
  /-- The tool calls are the first blocks. -/
  callsFirst : response.content.Pairwise fun a b => b.isToolUse = true → a.isToolUse = true
  /-- A call past the cap is refused. -/
  room : ∀ (k : Nat) block, response.content[k]? = some block → block.isToolUse = true →
    k < maxToolCalls
  /-- No arguments come in fragments. -/
  noFragments : ∀ event ∈ events, event.partialJson = ""
  /-- Beside a call there is no text, or some that is not blank. -/
  contentKept : (∃ block ∈ response.content, block.isToolUse = true) →
    response.content.filterMap ContentBlock.textPart = [] ∨
      String.join (response.content.filterMap ContentBlock.textPart) ≠ ""

/-- The message has neither a call nor text. -/
def NoAnswer (response : MessagesResponse) : Prop :=
  (∀ block ∈ response.content, block.isToolUse = false) ∧
    String.join (response.content.filterMap ContentBlock.textPart) = ""

section Carries

variable {lib : ValueLib} {response : MessagesResponse} {events : List MessagesEvent}
  {sent : List SentBlock}

theorem blockEvents_partialJson (k : Nat) (sent : List SentBlock) :
    (∀ event ∈ blockEvents k sent, event.partialJson = "") ↔ ∀ b ∈ sent, b.arguments = "" := by
  induction sent generalizing k with
  | nil => simp [blockEvents]
  | cons b rest ih =>
    have hBlock : (∀ event ∈ b.events k, event.partialJson = "") ↔ b.arguments = "" := by
      rw [SentBlock.arguments, join_eq_empty_iff, SentBlock.events, List.forall_mem_cons,
        List.forall_mem_append, List.forall_mem_singleton]
      simp [MessagesEvent.partialJson]
    simp only [blockEvents, List.forall_mem_append, hBlock, ih, List.forall_mem_cons]

theorem noFragments_iff {start : Option AnthropicStreamUsage} {outputs : List (Option UInt32)}
    (h : events.filter (fun event => !event.isOther) = .messageStart start ::
      (blockEvents 0 sent ++ (outputs.map .messageDelta ++ [MessagesEvent.messageStop]))) :
    (∀ event ∈ events, event.partialJson = "") ↔ ∀ b ∈ sent, b.arguments = "" := by
  rw [← blockEvents_partialJson 0]
  have hOthers : (∀ event ∈ events, event.partialJson = "") ↔
      ∀ event ∈ events.filter (fun event => !event.isOther), event.partialJson = "" := by
    constructor
    · intro hAll event hEvent
      exact hAll event (List.mem_filter.mp hEvent).1
    · intro hAll event hEvent
      by_cases hOther : event.isOther = true
      · cases event with
        | other => rfl
        | contentBlockStart | contentBlockDelta | contentBlockStop | messageStart | messageDelta
        | messageStop => cases hOther
      · exact hAll event (List.mem_filter.mpr ⟨hEvent, by simpa using hOther⟩)
  rw [hOthers, h]
  simp [MessagesEvent.partialJson, or_imp, forall_and]

theorem parts_eq (lib : ValueLib) (content : List ContentBlock) :
    (content.foldl (MessageParts.push lib) {}).textParts =
        content.filterMap ContentBlock.textPart ∧
      (content.foldl (MessageParts.push lib) {}).reasoningParts =
        content.filterMap ContentBlock.thinkingPart ∧
      (content.foldl (MessageParts.push lib) {}).toolCalls =
        content.filterMap (ContentBlock.toCall lib) := by
  have h := foldl_push lib content {}
  simpa using h

theorem toCall_eq_nil_iff (lib : ValueLib) (content : List ContentBlock) :
    content.filterMap (ContentBlock.toCall lib) = [] ↔
      ∀ block ∈ content, block.isToolUse = false := by
  rw [List.filterMap_eq_nil_iff]
  apply forall₂_congr
  intro block _
  cases block <;> simp [ContentBlock.toCall, ContentBlock.isToolUse]

/-- The stream of a message whose calls are below the cap ends in a state that has
its texts, its thinking blocks and its counts. -/
theorem run_eq (h : List.Forall₂ (SentAs lib) response.content sent)
    {start : Option AnthropicStreamUsage} {outputs : List (Option UInt32)}
    (hUsage : UsageSent response.usage start outputs)
    (hEvents : events.filter (fun event => !event.isOther) = .messageStart start ::
      (blockEvents 0 sent ++ (outputs.map .messageDelta ++ [MessagesEvent.messageStop])))
    (hRoom : MessagesStreamState.Room 0 response.content) :
    ∃ s, MessagesStreamState.run lib {} events = .ok s ∧
      s.Reads (response.content.foldl (MessageParts.push lib) {}) ∧
      s.usage = response.usage.map UsageInfo.toTokenUsage ∧
      s.pendingToolCalls =
        ((MessagesStreamState.started start).afterBlocks lib 0 response.content
          sent).pendingToolCalls := by
  have hBetween : (MessagesStreamState.started start).Between 0 := ⟨rfl, Nat.le_refl 0⟩
  obtain ⟨hInput, hOutput, hCached, hWrite⟩ :=
    MessagesStreamState.afterBlocks_counts lib h (MessagesStreamState.started start) 0
  rw [← MessagesStreamState.run_filter, hEvents, MessagesStreamState.run_messageStart,
    MessagesStreamState.run_blocks lib hBetween h hRoom, MessagesStreamState.run_outputs]
  obtain ⟨hText, hReasoning, hBlocks, hTracks, hCalls⟩ :=
    (MessagesStreamState.started_reads start).afterBlocks lib h 0
  refine ⟨_, rfl, ⟨hText, hReasoning, hBlocks, hTracks, hCalls⟩, ?_, rfl⟩
  refine MessagesStreamState.usage_eq hUsage hInput ?_ hCached hWrite
  exact congrArg outputs.getLast?.getD hOutput

theorem room_iff (content : List ContentBlock) :
    MessagesStreamState.Room 0 content ↔
      ∀ (k : Nat) block, content[k]? = some block → block.isToolUse = true →
        k < maxToolCalls := by
  unfold MessagesStreamState.Room
  simp only [Nat.zero_add]

/-- The calls of the stream are those of the message exactly if they come first and
without fragments. -/
theorem sameCalls_pending_iff (hLib : Lawful lib)
    (h : List.Forall₂ (SentAs lib) response.content sent)
    (start : Option AnthropicStreamUsage) :
    List.Forall₂ (SameCall lib)
        (((MessagesStreamState.started start).afterBlocks lib 0 response.content
          sent).pendingToolCalls.map StreamToolCall.toCall)
        (response.content.filterMap (ContentBlock.toCall lib)) ↔
      MessagesStreamState.CallsFirst response.content ∧ ∀ b ∈ sent, b.arguments = "" := by
  have hEmpty : (MessagesStreamState.started start).pendingToolCalls = [] := rfl
  by_cases hFirst : MessagesStreamState.CallsFirst response.content
  · have hLength : (MessagesStreamState.started start).pendingToolCalls.length = 0 := rfl
    rw [MessagesStreamState.pendingToolCalls_eq lib h hFirst (Or.inl hLength), hEmpty,
      List.nil_append, sameCalls_iff hLib h]
    simp [hFirst]
  · have hMore := (MessagesStreamState.length_pendingToolCalls lib h
      (Nat.le_refl (MessagesStreamState.started start).pendingToolCalls.length)).2 (Or.inr hFirst)
    have hNot : ¬List.Forall₂ (SameCall lib)
        (((MessagesStreamState.started start).afterBlocks lib 0 response.content
          sent).pendingToolCalls.map StreamToolCall.toCall)
        (response.content.filterMap (ContentBlock.toCall lib)) := by
      intro hAll
      have hLength := hAll.length_eq
      rw [List.length_map, length_toCall] at hLength
      rw [hEmpty] at hMore
      simp only [List.length_nil, Nat.zero_add] at hMore
      omega
    simp [hFirst, hNot]

/-- The turn of a streamed message is the turn of the whole message exactly if its
calls come first, below the cap and without argument fragments, and its text beside
a call is not blank. It shows the same reasoning exactly if that is one line, or
there is no answer. -/
theorem messagesRequestStreaming_agrees_iff (hLib : Lawful lib) (h : Carries lib response events) :
    (SameTurn (SameCall lib) (messagesRequestStreaming lib events)
        (responseToTurnResult lib response) ↔ StreamsWell response events) ∧
    (SameTurn (SameCall lib) (messagesRequestStreaming lib events)
        (responseToTurnResult lib response) ∧
      SameReasoning (messagesRequestStreaming lib events) (responseToTurnResult lib response) ↔
      StreamsWell response events ∧ (NoAnswer response ∨
        OneLine (response.content.filterMap ContentBlock.thinkingPart))) := by
  obtain ⟨start, sent, outputs, hSent, hUsage, hEvents⟩ := h
  obtain ⟨hTexts, hReasonings, hCalls⟩ := parts_eq lib response.content
  by_cases hRoom : MessagesStreamState.Room 0 response.content
  · obtain ⟨s, hRun, hReads, hCounts, hPending⟩ := run_eq hSent hUsage hEvents hRoom
    have hStream : messagesRequestStreaming lib events =
        s.toTurnResult (s.fullText = "") (s.pendingToolCalls.map StreamToolCall.toCall)
          (response.usage.map UsageInfo.toTokenUsage)
          (anthropicThinkingArtifact lib
            (response.content.foldl (MessageParts.push lib) {}).artifactBlocks) := by
      rw [messagesRequestStreaming, hRun]
      simp only [Except.bind, MessagesStreamState.finish, hCounts, hReads.blocks]
      rfl
    have hTurn : SameTurn (SameCall lib) (messagesRequestStreaming lib events)
        (responseToTurnResult lib response) ↔ StreamsWell response events := by
      have hNil : s.pendingToolCalls.map StreamToolCall.toCall = [] ↔
          (response.content.foldl (MessageParts.push lib) {}).toolCalls = [] := by
        rw [List.map_eq_nil_iff]
        exact hReads.calls
      have hOutput : s.toStreamTexts.Tracks (s.pendingToolCalls.map StreamToolCall.toCall ≠ []) := by
        rw [Ne, List.map_eq_nil_iff]
        exact hReads.output
      rw [hStream, responseToTurnResult, sameTurn_iff hReads.text hOutput hNil (by simp), hCalls,
        hPending, sameCalls_pending_iff hLib hSent, BlockParts.ContentKept, hCalls, hTexts]
      constructor
      · rintro ⟨⟨hFirst, hArguments⟩, hKept, _⟩
        refine ⟨hFirst, (room_iff _).mp hRoom, (noFragments_iff hEvents).mpr hArguments, ?_⟩
        rintro ⟨block, hBlock, hTool⟩
        apply hKept
        rw [Ne, toCall_eq_nil_iff]
        intro hNone
        rw [hNone block hBlock] at hTool
        cases hTool
      · rintro ⟨hFirst, _, hFragments, hKept⟩
        refine ⟨⟨hFirst, (noFragments_iff hEvents).mp hFragments⟩, ?_, by simp⟩
        intro hSome
        apply hKept
        rw [Ne, toCall_eq_nil_iff] at hSome
        simpa using hSome
    refine ⟨hTurn, ?_⟩
    rw [← hTurn]
    apply and_congr_right
    intro hSame
    rw [hStream, responseToTurnResult] at hSame ⊢
    rw [sameReasoning_iff hReads.reasoning hSame, hTexts, hReasonings, hCalls,
      toCall_eq_nil_iff]
    rfl
  · have hNotWell : ¬StreamsWell response events := fun hWell => hRoom ((room_iff _).mpr hWell.room)
    have hNotSame : ¬SameTurn (SameCall lib) (messagesRequestStreaming lib events)
        (responseToTurnResult lib response) := by
      have hBetween : (MessagesStreamState.started start).Between 0 := ⟨rfl, Nat.le_refl 0⟩
      obtain ⟨index, hError⟩ := MessagesStreamState.run_blocks_exceeds lib hBetween hSent hRoom
        (outputs.map .messageDelta ++ [MessagesEvent.messageStop])
      have hStream : messagesRequestStreaming lib events = .error (indexExceeds index) := by
        rw [messagesRequestStreaming, ← MessagesStreamState.run_filter, hEvents,
          MessagesStreamState.run_messageStart, hError]
        rfl
      rw [hStream]
      intro hSame
      cases hWhole : responseToTurnResult lib response with
      | ok result =>
        rw [hWhole] at hSame
        exact hSame
      | error err =>
        have hNone := whole_eq_error_iff.mp ⟨err, hWhole⟩
        rw [hCalls, toCall_eq_nil_iff] at hNone
        apply hRoom
        intro k block hk hTool
        rw [hNone.1 block (List.mem_of_getElem? hk)] at hTool
        cases hTool
    exact ⟨iff_of_false hNotSame hNotWell, iff_of_false (fun h => hNotSame h.1)
      fun h => hNotWell h.1⟩

end Carries

/-- The arguments of the call below. -/
def commandText : String := "\x7b\"command\":\"ls\"\x7d"

/-- `serde_json` on the arguments of the messages below. -/
def sampleLib : ValueLib where
  fromStr text :=
    if text = "\x7b\x7d" then some (.obj [])
    else if text = commandText then some (.obj [("command", .str "ls")])
    else none
  toVec _ := []
  usageFromValue _ := none
  valueToString
    | .obj [] => "\x7b\x7d"
    | _ => commandText

theorem sampleLib_lawful : Lawful sampleLib where
  write_empty := rfl
  read_empty := rfl
  read_trailing := by
    intro text hSome
    have hCommand : "\x7b\x7d" ++ text ≠ commandText := by
      intro hEq
      have hChars := congrArg (fun text => text.toList[1]?) hEq
      simp [commandText] at hChars
    simp only [sampleLib, hCommand, if_false] at hSome
    split at hSome
    · rename_i hEmpty
      have hNil : text = "" := by simpa using hEmpty
      rw [hNil]
      rfl
    · cases hSome
  read_blank := by
    intro text hBlank
    have hEmpty : text ≠ "\x7b\x7d" := by
      rintro rfl
      simp [isBlank] at hBlank
    have hCommand : text ≠ commandText := by
      rintro rfl
      simp [isBlank, commandText] at hBlank
    simp [sampleLib, hEmpty, hCommand]

/-- A call without arguments, and text behind it. -/
def callMessage : MessagesResponse where
  content := [.toolUse "toolu_1" "list_models" (.obj []), .text "Looking."]
  stopReason := some "tool_use"
  usage := some { inputTokens := 3, outputTokens := 5 }

def callEvents : List MessagesEvent :=
  [.messageStart (some ⟨3, 0, 0⟩), .other,
    .contentBlockStart 0 (.toolUse "toolu_1" "list_models" (.obj [])),
    .contentBlockDelta 0 (.inputJsonDelta ""), .contentBlockStop,
    .contentBlockStart 1 (.text ""), .contentBlockDelta 1 (.textDelta "Look"),
    .contentBlockDelta 1 (.textDelta "ing."), .contentBlockStop,
    .messageDelta (some 5), .messageStop]

theorem callEvents_carry : Carries sampleLib callMessage callEvents := by
  refine ⟨some ⟨3, 0, 0⟩,
    [⟨.toolUse "toolu_1" "list_models" (.obj []), [.inputJsonDelta ""]⟩,
      ⟨.text "", [.textDelta "Look", .textDelta "ing."]⟩], [some 5], ?_, ⟨rfl, rfl⟩, rfl⟩
  refine .cons ⟨rfl, rfl, rfl, by simp, Or.inr ⟨rfl, rfl⟩⟩ (.cons ⟨by simp, rfl⟩ .nil)

/-- A call without arguments in front is read from the stream as from the message. -/
theorem messagesRequestStreaming_agrees_call :
    SameTurn (SameCall sampleLib) (messagesRequestStreaming sampleLib callEvents)
      (responseToTurnResult sampleLib callMessage) := by
  refine (messagesRequestStreaming_agrees_iff sampleLib_lawful callEvents_carry).1.mpr ?_
  refine ⟨?_, ?_, ?_, ?_⟩
  · simp [callMessage, ContentBlock.isToolUse]
  · intro k block hk hTool
    have hLt := (List.getElem?_eq_some_iff.mp hk).1
    simp only [callMessage, List.length_cons, List.length_nil] at hLt
    have hCap : maxToolCalls = 128 := rfl
    omega
  · simp [callEvents, MessagesEvent.partialJson, StreamDelta.partialJson]
  · intro _
    right
    decide

/-- Text, and a call with arguments behind it. -/
def commandMessage : MessagesResponse where
  content := [.text "Looking.", .toolUse "toolu_1" "shell" (.obj [("command", .str "ls")])]
  stopReason := some "tool_use"

def commandEvents : List MessagesEvent :=
  [.messageStart none,
    .contentBlockStart 0 (.text ""), .contentBlockDelta 0 (.textDelta "Looking."),
    .contentBlockStop,
    .contentBlockStart 1 (.toolUse "toolu_1" "shell" (.obj [])),
    .contentBlockDelta 1 (.inputJsonDelta "\x7b\"command\":"),
    .contentBlockDelta 1 (.inputJsonDelta "\"ls\"\x7d"), .contentBlockStop, .messageStop]

/-- The calls of a turn. -/
def turnCalls : Except AdapterError ChatTurnResult → List ChatToolCall
  | .ok (.toolUse result) => result.toolCalls
  | _ => []

/-- A text block before a call leaves an empty call, and the arguments of the call
are no JSON. -/
theorem messagesRequestStreaming_differs :
    Carries sampleLib commandMessage commandEvents ∧
      turnCalls (messagesRequestStreaming sampleLib commandEvents) =
        [⟨"", "", "", none⟩, ⟨"toolu_1", "shell", "\x7b\x7d" ++ commandText, none⟩] ∧
      turnCalls (responseToTurnResult sampleLib commandMessage) =
        [⟨"toolu_1", "shell", commandText, none⟩] ∧
      ¬SameTurn (SameCall sampleLib) (messagesRequestStreaming sampleLib commandEvents)
        (responseToTurnResult sampleLib commandMessage) := by
  have hCarries : Carries sampleLib commandMessage commandEvents := by
    refine ⟨none, [⟨.text "", [.textDelta "Looking."]⟩,
      ⟨.toolUse "toolu_1" "shell" (.obj []),
        [.inputJsonDelta "\x7b\"command\":", .inputJsonDelta "\"ls\"\x7d"]⟩], [], ?_,
      Or.inl rfl, rfl⟩
    exact .cons ⟨by simp, rfl⟩ (.cons ⟨rfl, rfl, rfl, by simp, Or.inl rfl⟩ .nil)
  refine ⟨hCarries, by rfl, by rfl, ?_⟩
  intro hSame
  have hLength := hSame.2.1.length_eq
  cases hLength

end Choreographr.Protocols.Anthropic
