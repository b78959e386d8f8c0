import Choreographr.Protocols.Proofs.ChatStream

/-!
# Interleaved tool-call fragments

The fragments of several calls may come in any order that keeps each call's own.
The accumulator sorts them by index and folds each call's on its own, so the calls
depend neither on the order across indices nor on where an argument string was
cut. A fragment may lack its id, its name and its arguments, or repeat them: the
last id and the last name that came count. An index past the cap ends the stream.
-/

namespace Choreographr.Protocols

open Session Lib

/-- Fragments of one call. The last id and the last name they carry are the call's,
and the pieces of its arguments make up the whole. -/
structure CallDeltas (call : AssistantToolCall) (deltas : List StreamToolCallDelta) : Prop where
  nonempty : deltas ≠ []
  id : ((deltas.filterMap StreamToolCallDelta.id).getLast?).getD "" = call.id
  name : ((deltas.filterMap StreamToolCallDelta.name).getLast?).getD "" = call.name
  arguments : String.join (deltas.map fun delta => delta.arguments.getD "") = call.arguments

/-- An interleaving of the fragments of calls with distinct indices. -/
structure Interleaved (calls : List (Nat × AssistantToolCall))
    (deltas : List StreamToolCallDelta) : Prop where
  distinct : (calls.map Prod.fst).Nodup
  belongs : ∀ delta ∈ deltas, delta.index ∈ calls.map Prod.fst
  fragments : ∀ call ∈ calls, CallDeltas call.2 (deltas.filter fun delta => delta.index = call.1)

def AssistantToolCall.toCall (call : AssistantToolCall) : ChatToolCall where
  id := call.id
  name := call.name
  argumentsJson := call.arguments

/-- Calls in the order of their indices. -/
def byIndex (calls : List (Nat × AssistantToolCall)) : List (Nat × AssistantToolCall) :=
  calls.mergeSort fun a b => a.1 ≤ b.1

/-! ## One call -/

/-- The last value that the fragments carry is what is left. -/
theorem foldl_absorb_last {get : AccumulatingToolCall → Option String}
    {carried : StreamToolCallDelta → Option String}
    (hAbsorb : ∀ acc delta, get (acc.absorb delta) = (carried delta).or (get acc))
    (deltas : List StreamToolCallDelta) (acc : AccumulatingToolCall) :
    get (deltas.foldl AccumulatingToolCall.absorb acc) =
      (deltas.filterMap carried).getLast?.or (get acc) := by
  induction deltas generalizing acc with
  | nil => rfl
  | cons delta rest ih =>
    rw [List.foldl_cons, ih, hAbsorb]
    cases hCarried : carried delta with
    | none => rw [List.filterMap_cons_none hCarried, Option.none_or]
    | some text =>
      rw [List.filterMap_cons_some hCarried, List.getLast?_cons]
      cases (rest.filterMap carried).getLast? <;> rfl

theorem CallDeltas.toCall_eq {call : AssistantToolCall} {deltas : List StreamToolCallDelta}
    (h : CallDeltas call deltas) :
    (deltas.foldl AccumulatingToolCall.absorb {}).toCall = call.toCall := by
  have hId := @foldl_absorb_last AccumulatingToolCall.id StreamToolCallDelta.id
    (fun _ _ => rfl) deltas {}
  have hName := @foldl_absorb_last AccumulatingToolCall.name StreamToolCallDelta.name
    (fun _ _ => rfl) deltas {}
  have hArguments := foldl_absorb_arguments deltas {}
  rw [Option.or_none] at hId hName
  rw [h.arguments] at hArguments
  simp only [AccumulatingToolCall.toCall, AssistantToolCall.toCall, hId, hName, hArguments, h.id,
    h.name]
  simp

/-! ## All calls -/

theorem byIndex_perm (calls : List (Nat × AssistantToolCall)) : (byIndex calls).Perm calls :=
  List.mergeSort_perm _ _

theorem byIndex_sorted {calls : List (Nat × AssistantToolCall)}
    (h : (calls.map Prod.fst).Nodup) : ((byIndex calls).map Prod.fst).Pairwise (· < ·) := by
  have hLe : ((byIndex calls).map Prod.fst).Pairwise (· ≤ ·) := by
    rw [List.pairwise_map]
    refine (List.pairwise_mergeSort ?_ ?_ calls).imp fun hab => of_decide_eq_true hab
    · intro a b c hab hbc
      exact decide_eq_true (Nat.le_trans (of_decide_eq_true hab) (of_decide_eq_true hbc))
    · intro a b
      rw [Bool.or_eq_true, decide_eq_true_iff, decide_eq_true_iff]
      exact Nat.le_total a.1 b.1
  have hNodup : ((byIndex calls).map Prod.fst).Nodup :=
    ((byIndex_perm calls).map Prod.fst).nodup_iff.mpr h
  exact hLe.imp₂ (fun a b hab hne => Nat.lt_of_le_of_ne hab hne) hNodup

/-- The calls come out whole and in the order of their indices. -/
theorem Interleaved.accumulate_eq {calls : List (Nat × AssistantToolCall)}
    {deltas : List StreamToolCallDelta} (h : Interleaved calls deltas) :
    accumulateToolCallsFromDeltas deltas = (byIndex calls).map fun call => call.2.toCall := by
  have hMem : ∀ index, index ∈ (byIndex calls).map Prod.fst ↔ index ∈ calls.map Prod.fst :=
    fun index => ((byIndex_perm calls).map Prod.fst).mem_iff
  rw [accumulate_eq_of_indices (byIndex_sorted h.distinct)
    (fun delta hDelta => (hMem _).mpr (h.belongs delta hDelta)), List.map_map]
  · apply List.map_congr_left
    intro call hCall
    exact (h.fragments call ((byIndex_perm calls).mem_iff.mp hCall)).toCall_eq
  · intro index hIndex
    obtain ⟨call, hCall, rfl⟩ := List.mem_map.mp ((hMem index).mp hIndex)
    exact (h.fragments call hCall).nonempty

/-! ## The cap -/

namespace ChatCompletionsStreamAccumulator

variable {lib : JsonLib}

/-- The calls of a choice. -/
def choiceCalls (choice : StreamChoice) : List StreamToolCallDelta :=
  (choice.delta.bind StreamDelta.toolCalls).getD []

theorem streamToolCalls_eq (chunks : List ChatCompletionsStreamResponse) :
    streamToolCalls chunks = (streamChoices chunks).flatMap choiceCalls := by
  rw [streamToolCalls, streamDeltas]
  induction streamChoices chunks with
  | nil => rfl
  | cons choice rest ih =>
    rw [List.flatMap_cons, ← ih, choiceCalls]
    cases hDelta : choice.delta with
    | none => rw [List.filterMap_cons_none hDelta]; rfl
    | some delta => rw [List.filterMap_cons_some hDelta]; rfl

theorem applyChoice_out_of_bounds {choice : StreamChoice}
    (h : ∃ call ∈ choiceCalls choice, maxToolCalls ≤ call.index)
    (acc : ChatCompletionsStreamAccumulator) :
    ∃ index, acc.applyChoice lib choice = .error (indexOutOfBounds index) := by
  obtain ⟨delta, finishReason⟩ := choice
  obtain ⟨call, hCall, hIndex⟩ := h
  cases delta with
  | none => cases hCall
  | some delta =>
    have hFound : ((delta.toolCalls.getD []).find? fun call => maxToolCalls ≤ call.index).isSome := by
      rw [List.find?_isSome]
      exact ⟨call, hCall, by simpa using hIndex⟩
    obtain ⟨first, hFirst⟩ := Option.isSome_iff_exists.mp hFound
    refine ⟨first.index, ?_⟩
    simp only [applyChoice, hFirst]

theorem applyNext_out_of_bounds {choices : List StreamChoice}
    (h : ∃ call ∈ choices.flatMap choiceCalls, maxToolCalls ≤ call.index)
    (state : ChatCompletionsStreamAccumulator × List StreamEvent) :
    ∃ index, choices.foldlM (applyNext lib) state = .error (indexOutOfBounds index) := by
  induction choices generalizing state with
  | nil =>
    obtain ⟨call, hCall, -⟩ := h
    cases hCall
  | cons choice rest ih =>
    rw [List.foldlM_cons, applyNext]
    by_cases hBad : ∃ call ∈ choiceCalls choice, maxToolCalls ≤ call.index
    · obtain ⟨index, hError⟩ := @applyChoice_out_of_bounds lib choice hBad state.1
      rw [hError]
      exact ⟨index, rfl⟩
    · have hFits : ∀ call ∈ choiceCalls choice, call.index < maxToolCalls := by
        intro call hCall
        by_contra hLarge
        exact hBad ⟨call, hCall, Nat.le_of_not_lt hLarge⟩
      obtain ⟨shown, hOk⟩ := applyChoice_eq lib hFits state.1
      rw [hOk]
      apply ih
      obtain ⟨call, hCall, hIndex⟩ := h
      rcases List.mem_append.mp (List.flatMap_cons ▸ hCall) with hHere | hLater
      · exact absurd ⟨call, hHere, hIndex⟩ hBad
      · exact ⟨call, hLater, hIndex⟩

theorem applyAll_out_of_bounds {chunks : List ChatCompletionsStreamResponse}
    (h : ∃ call ∈ streamToolCalls chunks, maxToolCalls ≤ call.index)
    (acc : ChatCompletionsStreamAccumulator) :
    ∃ index, acc.applyAll lib chunks = .error (indexOutOfBounds index) := by
  rw [streamToolCalls_eq] at h
  induction chunks generalizing acc with
  | nil =>
    obtain ⟨call, hCall, -⟩ := h
    cases hCall
  | cons chunk rest ih =>
    rw [applyAll, List.foldlM_cons, apply]
    by_cases hBad : ∃ call ∈ chunk.choices.flatMap choiceCalls, maxToolCalls ≤ call.index
    · obtain ⟨index, hError⟩ := @applyNext_out_of_bounds lib chunk.choices hBad
        ({ acc with lastUsage := (chunk.usage.map Usage.toTokenUsage).or acc.lastUsage }, [])
      rw [hError]
      exact ⟨index, rfl⟩
    · have hFits : ∀ call ∈ (chunk.choices.filterMap StreamChoice.delta).flatMap
          fun d => d.toolCalls.getD [], call.index < maxToolCalls := by
        intro call hCall
        by_contra hLarge
        have hEq := streamToolCalls_eq [chunk]
        rw [streamToolCalls, streamDeltas, streamChoices, List.flatMap_singleton] at hEq
        exact hBad ⟨call, hEq ▸ hCall, Nat.le_of_not_lt hLarge⟩
      obtain ⟨shown, hOk⟩ := foldlM_applyNext lib hFits
        { acc with lastUsage := (chunk.usage.map Usage.toTokenUsage).or acc.lastUsage } []
      rw [hOk]
      apply ih
      obtain ⟨call, hCall, hIndex⟩ := h
      rw [streamChoices, List.flatMap_cons, List.flatMap_append] at hCall
      rcases List.mem_append.mp hCall with hHere | hLater
      · exact absurd ⟨call, hHere, hIndex⟩ hBad
      · exact ⟨call, hLater, hIndex⟩

end ChatCompletionsStreamAccumulator

/-- What a stream of chunks accumulates of its calls. -/
def accumulatedCalls (lib : JsonLib) (chunks : List ChatCompletionsStreamResponse) :
    Except OpenAiError (List ChatToolCall) :=
  (ChatCompletionsStreamAccumulator.applyAll lib {} chunks).map fun acc =>
    accumulateToolCallsFromDeltas acc.rawToolCallDeltas

/-- Every interleaving of the fragments of calls with indices below the cap accumulates
to the calls, in the order of their indices; an index past the cap is an error. -/
theorem tool_calls_accumulated (lib : JsonLib) {calls : List (Nat × AssistantToolCall)}
    {chunks : List ChatCompletionsStreamResponse}
    (h : Interleaved calls (streamToolCalls chunks)) :
    ((∀ call ∈ calls, call.1 < maxToolCalls) →
      accumulatedCalls lib chunks = .ok ((byIndex calls).map fun call => call.2.toCall)) ∧
    ((∃ call ∈ calls, maxToolCalls ≤ call.1) →
      ∃ index, accumulatedCalls lib chunks =
        .error (ChatCompletionsStreamAccumulator.indexOutOfBounds index)) := by
  constructor
  · intro hCap
    have hIndices : ∀ call ∈ streamToolCalls chunks, call.index < maxToolCalls := by
      intro delta hDelta
      obtain ⟨call, hCall, hIndex⟩ := List.mem_map.mp (h.belongs delta hDelta)
      exact hIndex ▸ hCap call hCall
    rw [accumulatedCalls, ChatCompletionsStreamAccumulator.applyAll_eq hIndices]
    have hRaw : ∀ acc : ChatCompletionsStreamAccumulator, acc.rawToolCallDeltas = [] →
        (acc.extend lib (streamChoices chunks)).rawToolCallDeltas = streamToolCalls chunks := by
      intro acc hEmpty
      rw [ChatCompletionsStreamAccumulator.extend, hEmpty]
      rfl
    simp only [Except.map, hRaw, h.accumulate_eq]
  · rintro ⟨call, hCall, hLarge⟩
    obtain ⟨delta, hDelta⟩ := List.exists_mem_of_ne_nil _ (h.fragments call hCall).nonempty
    obtain ⟨hMem, hEq⟩ := List.mem_filter.mp hDelta
    have hIndex : delta.index = call.1 := of_decide_eq_true hEq
    obtain ⟨index, hError⟩ := @ChatCompletionsStreamAccumulator.applyAll_out_of_bounds lib chunks
      ⟨delta, hMem, hIndex ▸ hLarge⟩ {}
    exact ⟨index, by rw [accumulatedCalls, hError]; rfl⟩

/-! ## Two calls, a repeated field and an index past the cap -/

/-- A chunk with one choice that brings tool-call fragments. -/
def callChunk (deltas : List StreamToolCallDelta) : ChatCompletionsStreamResponse where
  choices := [{ delta := some { toolCalls := some deltas } }]

/-- A library that reads nothing; tool-call fragments do not need it. -/
def plainJson : JsonLib := ⟨fun _ => none, fun _ => [], fun _ => none⟩

def readTool : AssistantToolCall := ⟨"call1", "read", "ab"⟩
def listTool : AssistantToolCall := ⟨"call2", "list", "cd"⟩

/-- The second index comes first, and the arguments of its call are cut. -/
def twoCallDeltas : List StreamToolCallDelta :=
  [⟨3, some "call1", some ⟨some "read", some "a"⟩⟩, ⟨1, some "call2", none⟩,
    ⟨3, some "call1", some ⟨none, some "b"⟩⟩, ⟨1, none, some ⟨some "list", some "cd"⟩⟩]

theorem tool_calls_accumulated_two :
    accumulatedCalls plainJson
        [callChunk (twoCallDeltas.take 2), callChunk (twoCallDeltas.drop 2)] =
      .ok [listTool.toCall, readTool.toCall] := by
  have h : Interleaved [(1, listTool), (3, readTool)]
      (streamToolCalls [callChunk (twoCallDeltas.take 2), callChunk (twoCallDeltas.drop 2)]) := by
    refine ⟨by decide, by decide, ?_⟩
    intro call hCall
    rcases List.mem_cons.mp hCall with rfl | hCall
    · exact ⟨List.cons_ne_nil _ _, by decide, by decide, by decide⟩
    · rw [List.mem_singleton.mp hCall]
      exact ⟨List.cons_ne_nil _ _, by decide, by decide, by decide⟩
  have hOk := (tool_calls_accumulated plainJson h).1 (by decide)
  have hSorted : byIndex [(1, listTool), (3, readTool)] = [(1, listTool), (3, readTool)] :=
    List.mergeSort_of_pairwise (by decide)
  rw [hOk, hSorted]
  rfl

/-- The last fragment that carries an id counts, also when it is empty, and a call with
an index past the cap is refused. -/
theorem empty_id_counts_and_index_cap :
    accumulateToolCallsFromDeltas
        [⟨0, some "call1", some ⟨some "read", some "a"⟩⟩, ⟨0, some "", some ⟨none, some "b"⟩⟩] =
        [⟨"", "read", "ab", none⟩] ∧
      accumulatedCalls plainJson
        [callChunk [⟨128, some "call1", some ⟨some "read", some "ab"⟩⟩]] =
        .error (ChatCompletionsStreamAccumulator.indexOutOfBounds 128) :=
  ⟨rfl, rfl⟩

end Choreographr.Protocols
