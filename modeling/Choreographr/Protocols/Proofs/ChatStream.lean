import Choreographr.Protocols.Proofs.ReasoningCapture

/-!
# Streamed chat replies

The accumulator is described by the chunks it has folded (`applyAll_eq`): texts
concatenated, tool-call fragments collected, the last usage and the last finish
reason, and the reasoning fold of all deltas. On the fragments of a reply each of
these is what the whole reply gives.
-/

namespace Choreographr.Protocols

open Session Lib

/-! ## Tool calls -/

theorem OrdMap_values_eq {α : Type} (m : OrdMap Nat α) : m.values = m.keys.filterMap m.get? := by
  rw [OrdMap.keys, List.filterMap_map, OrdMap.values, ← List.filterMap_eq_map]
  apply List.filterMap_congr
  intro e he
  exact (OrdMap.get?_eq_some_iff.mpr he).symm

/-- The fold of the fragments, by index. -/
def absorbAt (calls : OrdMap Nat AccumulatingToolCall) (delta : StreamToolCallDelta) :
    OrdMap Nat AccumulatingToolCall :=
  calls.insert delta.index (((calls.get? delta.index).getD {}).absorb delta)

theorem get?_foldl_absorbAt (deltas : List StreamToolCallDelta)
    (calls : OrdMap Nat AccumulatingToolCall) (index : Nat) :
    (deltas.foldl absorbAt calls).get? index =
      if (deltas.filter fun delta => delta.index = index) = [] then calls.get? index
      else some ((deltas.filter fun delta => delta.index = index).foldl
        AccumulatingToolCall.absorb ((calls.get? index).getD {})) := by
  induction deltas generalizing calls with
  | nil => simp
  | cons delta rest ih =>
    rw [List.foldl_cons, ih, absorbAt, OrdMap.get?_insert]
    by_cases hIndex : delta.index = index
    · subst hIndex
      simp only [if_true, decide_true, List.filter_cons_of_pos, reduceCtorEq, if_false,
        List.foldl_cons, Option.getD_some]
      split
      · rename_i hNone
        rw [hNone]
        rfl
      · rfl
    · have hNe : index ≠ delta.index := fun h => hIndex h.symm
      simp [hIndex, hNe]

section CallFragments

variable {call : AssistantToolCall} {deltas : List StreamToolCallDelta}

theorem foldl_absorb_arguments (deltas : List StreamToolCallDelta) (acc : AccumulatingToolCall) :
    (deltas.foldl AccumulatingToolCall.absorb acc).arguments =
      acc.arguments ++ String.join (deltas.map fun delta => delta.arguments.getD "") := by
  induction deltas generalizing acc with
  | nil => simp
  | cons delta rest ih =>
    rw [List.foldl_cons, ih]
    simp [AccumulatingToolCall.absorb, StreamToolCallDelta.arguments, String.append_assoc]

/-- A value that several fragments may carry, all the same, is read off any of
them. `get` is the part of the accumulated call that holds it. -/
theorem foldl_absorb_carried {get : AccumulatingToolCall → Option String}
    {carried : StreamToolCallDelta → Option String}
    (hAbsorb : ∀ acc delta, get (acc.absorb delta) = (carried delta).or (get acc))
    {text : String} {acc : AccumulatingToolCall} (hAcc : get acc = none ∨ get acc = some text)
    (hSame : ∀ delta ∈ deltas, ∀ t, carried delta = some t → t = text)
    (hSent : text = "" ∨ get acc = some text ∨ ∃ delta ∈ deltas, carried delta = some text) :
    (get (deltas.foldl AccumulatingToolCall.absorb acc)).getD "" = text := by
  induction deltas generalizing acc with
  | nil =>
    rcases hAcc with hAcc | hAcc
    · rcases hSent with rfl | hSent | ⟨_, hMem, _⟩
      · simp [hAcc]
      · simp [hSent]
      · cases hMem
    · simp [hAcc]
  | cons delta rest ih =>
    rw [List.foldl_cons]
    have hRest : ∀ d ∈ rest, ∀ t, carried d = some t → t = text :=
      fun d hd => hSame d (List.mem_cons_of_mem delta hd)
    cases hCarried : carried delta with
    | none =>
      have hGet : get (acc.absorb delta) = get acc := by rw [hAbsorb, hCarried, Option.none_or]
      apply ih _ hRest
      · rcases hSent with hEmpty | hSent | ⟨d, hMem, hd⟩
        · exact Or.inl hEmpty
        · exact Or.inr (Or.inl (hGet.trans hSent))
        · rcases List.mem_cons.mp hMem with rfl | hMem
          · rw [hCarried] at hd
            cases hd
          · exact Or.inr (Or.inr ⟨d, hMem, hd⟩)
      · rw [hGet]
        exact hAcc
    | some t =>
      obtain rfl := hSame delta List.mem_cons_self t hCarried
      have hGet : get (acc.absorb delta) = some t := by rw [hAbsorb, hCarried, Option.some_or]
      exact ih (Or.inr hGet) hRest (Or.inr (Or.inl hGet))

theorem CallFragments.toCall_eq (h : CallFragments call deltas) :
    (deltas.foldl AccumulatingToolCall.absorb {}).toCall =
      { id := call.id, name := call.name, argumentsJson := call.arguments } := by
  have hId : ((deltas.foldl AccumulatingToolCall.absorb {}).id).getD "" = call.id := by
    apply foldl_absorb_carried (fun _ _ => rfl) (Or.inl rfl) h.id
    exact h.id_sent.imp_right Or.inr
  have hName : ((deltas.foldl AccumulatingToolCall.absorb {}).name).getD "" = call.name := by
    apply foldl_absorb_carried (fun _ _ => rfl) (Or.inl rfl) h.name
    exact h.name_sent.imp_right Or.inr
  have hArguments := foldl_absorb_arguments deltas {}
  rw [h.arguments] at hArguments
  simp only [AccumulatingToolCall.toCall, hId, hName, hArguments]
  simp

end CallFragments

/-- Fragments under the given increasing indices accumulate to one call each, in the order
of the indices. -/
theorem accumulate_eq_of_indices {indices : List Nat} {deltas : List StreamToolCallDelta}
    (hSorted : indices.Pairwise (· < ·)) (hIndices : ∀ delta ∈ deltas, delta.index ∈ indices)
    (hFragments : ∀ index ∈ indices, (deltas.filter fun d => d.index = index) ≠ []) :
    accumulateToolCallsFromDeltas deltas = indices.map fun index =>
      ((deltas.filter fun d => d.index = index).foldl AccumulatingToolCall.absorb {}).toCall := by
  have hKeys : (deltas.foldl absorbAt OrdMap.empty).keys = indices := by
    apply List.Pairwise.eq_of_mem_iff (OrdMap.keys_sorted _) hSorted
    intro index
    rw [OrdMap.mem_keys_iff]
    simp only [get?_foldl_absorbAt, OrdMap.get?_empty]
    constructor
    · rintro ⟨v, hv⟩
      split at hv
      · cases hv
      · rename_i hSome
        obtain ⟨d, hd⟩ := List.exists_mem_of_ne_nil _ hSome
        obtain ⟨hMem, hEq⟩ := List.mem_filter.mp hd
        have hIndex : d.index = index := by simpa using hEq
        exact hIndex ▸ hIndices d hMem
    · intro hIndex
      rw [if_neg (hFragments index hIndex)]
      exact ⟨_, rfl⟩
  have hValues : (deltas.foldl absorbAt OrdMap.empty).values =
      indices.map fun index =>
        (deltas.filter fun d => d.index = index).foldl AccumulatingToolCall.absorb {} := by
    rw [OrdMap_values_eq, hKeys, ← List.filterMap_eq_map]
    apply List.filterMap_congr
    intro index hIndex
    rw [get?_foldl_absorbAt, if_neg (hFragments index hIndex), OrdMap.get?_empty]
    rfl
  have hFold : accumulateToolCallsFromDeltas deltas =
      (deltas.foldl absorbAt OrdMap.empty).values.map AccumulatingToolCall.toCall := rfl
  rw [hFold, hValues, List.map_map]
  rfl

/-- The fragments of the calls of a reply accumulate to the calls, in order. -/
theorem ToolCallFragments.accumulate_eq {calls : List AssistantToolCall}
    {deltas : List StreamToolCallDelta} (h : ToolCallFragments calls deltas) :
    accumulateToolCallsFromDeltas deltas =
      calls.map fun call =>
        { id := call.id, name := call.name, argumentsJson := call.arguments } := by
  obtain ⟨indices, hSorted, hLength, hIndices, hCalls⟩ := h
  have hFragments : ∀ index ∈ indices, (deltas.filter fun d => d.index = index) ≠ [] := by
    intro index hIndex
    obtain ⟨k, hk, rfl⟩ := List.mem_iff_getElem.mp hIndex
    have hCall : calls[k]? = some calls[k] := List.getElem?_eq_getElem (hLength ▸ hk)
    exact (hCalls k _ _ hCall (List.getElem?_eq_getElem hk)).nonempty
  rw [accumulate_eq_of_indices hSorted hIndices hFragments]
  apply List.ext_getElem
  · simp [hLength]
  · intro k hk hk'
    rw [List.length_map] at hk hk'
    simp only [List.getElem_map]
    exact (hCalls k _ _ (List.getElem?_eq_getElem hk') (List.getElem?_eq_getElem hk)).toCall_eq

/-! ## Reasoning -/

namespace ReasoningStreamState

variable {lib : JsonLib} {s : ReasoningStreamState} {delta : StreamDelta}

theorem applyScalar_frame (s : ReasoningStreamState) (field : ChatReasoningField)
    (text : Option String) :
    (s.applyScalar field text).1.details = s.details ∧
      (s.applyScalar field text).1.detailsText = s.detailsText := by
  unfold applyScalar
  split
  · exact ⟨rfl, rfl⟩
  · dsimp only
    split
    · exact ⟨rfl, rfl⟩
    · exact ⟨rfl, rfl⟩

/-- What folding one scalar field does to the scalar channel. -/
theorem applyScalar_scalar (s : ReasoningStreamState) (field : ChatReasoningField)
    (text : Option String) :
    (s.applyScalar field text).1.scalarField =
        (if text.getD "" = "" then s.scalarField else s.scalarField.or (some field)) ∧
      (s.applyScalar field text).1.scalarText =
        (if s.scalarField.or (some field) = some field then s.scalarText ++ text.getD ""
          else s.scalarText) ∧
      (s.applyScalar field text).1.produced = (s.produced || decide (text.getD "" ≠ "")) := by
  unfold applyScalar
  cases text with
  | none => simp
  | some text =>
    by_cases hText : text = ""
    · simp [hText, Option.filter]
    · cases hField : s.scalarField with
      | none => simp [hText, Option.filter]
      | some chosen =>
        by_cases hChosen : chosen = field
        · simp [hText, Option.filter, hChosen]
        · simp [hText, Option.filter, hChosen]

/-- The state after the structured part of a delta. -/
def afterDetails (lib : JsonLib) (s : ReasoningStreamState) (delta : StreamDelta) :
    ReasoningStreamState :=
  (delta.reasoningDetails.map fun raw => (s.applyDetails lib raw).1).getD s

theorem apply_fst (lib : JsonLib) (s : ReasoningStreamState) (delta : StreamDelta) :
    (s.apply lib delta).1 =
      ((((s.afterDetails lib delta).applyScalar .reasoningContent delta.reasoningContent).1.applyScalar
        .reasoning delta.reasoning).1.applyScalar .reasoningText delta.reasoningText).1 := by
  unfold apply afterDetails
  cases delta.reasoningDetails with
  | none => rfl
  | some raw => rfl

theorem scalar_eq_empty (h : delta.preferredField = none) (field : ChatReasoningField) :
    delta.scalar field = "" := by
  simp only [StreamDelta.preferredField, List.find?_eq_none] at h
  cases field with
  | reasoningContent => simpa using h .reasoningContent (by simp)
  | reasoning => simpa using h .reasoning (by simp)
  | reasoningText => simpa using h .reasoningText (by simp)
  | reasoningDetails => rfl

theorem scalar_ne_empty {field : ChatReasoningField} (h : delta.preferredField = some field) :
    delta.scalar field ≠ "" := by
  have hFound := List.find?_some h
  simpa using hFound

/-- What folding a delta does to the scalar channel: its preferred field is locked
in if none is, and the text of the locked field is appended. -/
theorem apply_scalar (lib : JsonLib) (s : ReasoningStreamState) (delta : StreamDelta) :
    (s.apply lib delta).1.scalarField = s.scalarField.or delta.preferredField ∧
      (s.apply lib delta).1.scalarText =
        s.scalarText ++ ((s.scalarField.or delta.preferredField).map delta.scalar).getD "" := by
  have hFrame : (s.afterDetails lib delta).scalarField = s.scalarField ∧
      (s.afterDetails lib delta).scalarText = s.scalarText := by
    unfold afterDetails
    cases delta.reasoningDetails <;> exact ⟨rfl, rfl⟩
  rw [apply_fst]
  simp only [(applyScalar_scalar _ _ _).1, (applyScalar_scalar _ _ _).2.1, hFrame.1, hFrame.2,
    StreamDelta.preferredField, StreamDelta.scalar, List.find?_cons, List.find?_nil]
  cases s.scalarField with
  | some field => cases field <;> simp [StreamDelta.scalar]
  | none =>
    by_cases h₁ : delta.reasoningContent.getD "" = ""
    · by_cases h₂ : delta.reasoning.getD "" = ""
      · by_cases h₃ : delta.reasoningText.getD "" = ""
        · simp [h₁, h₂, h₃]
        · simp [h₁, h₂, h₃, StreamDelta.scalar]
      · simp [h₁, h₂, StreamDelta.scalar]
    · simp [h₁, StreamDelta.scalar]

theorem fragmentText_typedEntries (lib : JsonLib) (raw : Json) :
    String.join ((DetailsStore.valueEntries lib raw).filterMap displayFragment) =
      fragmentText (typedEntries lib raw) := by
  rw [fragmentText, typedEntries, List.filterMap_filter]
  apply congrArg
  apply List.filterMap_congr
  intro entry _
  cases hTag : entry.typeTag with
  | some tag => rfl
  | none => simp [displayFragment, classify, hTag]

theorem apply_details (lib : JsonLib) (s : ReasoningStreamState) (delta : StreamDelta) :
    (s.apply lib delta).1.details =
        (delta.reasoningDetails.map fun raw => s.details.push lib raw).getD s.details ∧
      (s.apply lib delta).1.detailsText =
        s.detailsText ++ fragmentText
          ((delta.reasoningDetails.map (typedEntries lib)).getD []) := by
  rw [apply_fst]
  simp only [(applyScalar_frame _ _ _).1, (applyScalar_frame _ _ _).2, afterDetails]
  cases delta.reasoningDetails with
  | none => simp [fragmentText]
  | some raw =>
    simp only [Option.map_some, Option.getD_some, ← fragmentText_typedEntries]
    exact ⟨rfl, rfl⟩

theorem apply_produced (lib : JsonLib) (s : ReasoningStreamState) (delta : StreamDelta) :
    (s.apply lib delta).1.produced =
      (s.produced || !((delta.reasoningDetails.map (typedEntries lib)).getD []).isEmpty ||
        delta.preferredField.isSome) := by
  have hDetails : (s.afterDetails lib delta).produced =
      (s.produced || !((delta.reasoningDetails.map (typedEntries lib)).getD []).isEmpty) := by
    unfold afterDetails
    cases delta.reasoningDetails with
    | none => simp
    | some raw =>
      have hAny : ((DetailsStore.valueEntries lib raw).any fun entry => entry.typeTag.isSome) =
          !(typedEntries lib raw).isEmpty := by
        rw [typedEntries, Bool.eq_iff_iff]
        simp [Option.isSome_iff_ne_none]
      simp only [Option.map_some, Option.getD_some, ← hAny]
      rfl
  rw [apply_fst]
  simp only [(applyScalar_scalar _ _ _).2.2, hDetails, StreamDelta.preferredField,
    StreamDelta.scalar, List.find?_cons, List.find?_nil]
  by_cases h₁ : delta.reasoningContent.getD "" = ""
  · by_cases h₂ : delta.reasoning.getD "" = ""
    · by_cases h₃ : delta.reasoningText.getD "" = ""
      · simp [h₁, h₂, h₃]
      · simp [h₁, h₂, h₃]
    · simp [h₁, h₂]
  · simp [h₁]

/-! ### Folding the deltas of a stream -/

/-- The reasoning state after some deltas. -/
def afterAll (lib : JsonLib) (s : ReasoningStreamState) (deltas : List StreamDelta) :
    ReasoningStreamState :=
  deltas.foldl (fun s delta => (s.apply lib delta).1) s

/-- The structured entries of deltas. -/
def entriesOf (lib : JsonLib) (deltas : List StreamDelta) : List Json :=
  (deltas.filterMap StreamDelta.reasoningDetails).flatMap (typedEntries lib)

theorem entriesOf_cons (lib : JsonLib) (delta : StreamDelta) (rest : List StreamDelta) :
    entriesOf lib (delta :: rest) =
      (delta.reasoningDetails.map (typedEntries lib)).getD [] ++ entriesOf lib rest := by
  unfold entriesOf
  cases h : delta.reasoningDetails with
  | none => simp [h]
  | some raw => simp [h]

theorem afterAll_details (lib : JsonLib) (s : ReasoningStreamState) (deltas : List StreamDelta) :
    (s.afterAll lib deltas).details =
      (deltas.filterMap StreamDelta.reasoningDetails).foldl (DetailsStore.push lib) s.details := by
  induction deltas generalizing s with
  | nil => rfl
  | cons delta rest ih =>
    have hStep : s.afterAll lib (delta :: rest) = (s.apply lib delta).1.afterAll lib rest := rfl
    rw [hStep, ih, (apply_details lib s delta).1]
    cases h : delta.reasoningDetails with
    | none => simp [h]
    | some raw => simp [h]

theorem afterAll_detailsText (lib : JsonLib) (s : ReasoningStreamState)
    (deltas : List StreamDelta) :
    (s.afterAll lib deltas).detailsText =
      s.detailsText ++ fragmentText (entriesOf lib deltas) := by
  induction deltas generalizing s with
  | nil => simp [afterAll, entriesOf, fragmentText]
  | cons delta rest ih =>
    have hStep : s.afterAll lib (delta :: rest) = (s.apply lib delta).1.afterAll lib rest := rfl
    rw [hStep, ih, (apply_details lib s delta).2, entriesOf_cons, String.append_assoc]
    simp [fragmentText]

theorem afterAll_produced (lib : JsonLib) (s : ReasoningStreamState) (deltas : List StreamDelta) :
    (s.afterAll lib deltas).produced =
      (s.produced || !(entriesOf lib deltas).isEmpty ||
        (deltas.findSome? StreamDelta.preferredField).isSome) := by
  induction deltas generalizing s with
  | nil => simp [afterAll, entriesOf]
  | cons delta rest ih =>
    have hStep : s.afterAll lib (delta :: rest) = (s.apply lib delta).1.afterAll lib rest := rfl
    rw [hStep, ih, apply_produced, entriesOf_cons, List.findSome?_cons]
    have hEmpty : ∀ xs ys : List Json, (!(xs ++ ys).isEmpty) = (!xs.isEmpty || !ys.isEmpty) := by
      intro xs ys
      cases xs <;> simp
    rw [hEmpty]
    cases delta.preferredField with
    | none => simp [Bool.or_assoc]
    | some field => simp

/-- The scalar channel after some deltas: the field of the first delta that has
one, with all its text. -/
theorem afterAll_scalar (lib : JsonLib) (s : ReasoningStreamState) (deltas : List StreamDelta) :
    (s.afterAll lib deltas).scalarField =
        s.scalarField.or (deltas.findSome? StreamDelta.preferredField) ∧
      (s.afterAll lib deltas).scalarText = s.scalarText ++
        ((s.scalarField.or (deltas.findSome? StreamDelta.preferredField)).map fun field =>
          String.join (deltas.map fun delta => delta.scalar field)).getD "" := by
  induction deltas generalizing s with
  | nil => cases h : s.scalarField <;> simp [afterAll, h]
  | cons delta rest ih =>
    have hStep : s.afterAll lib (delta :: rest) = (s.apply lib delta).1.afterAll lib rest := rfl
    obtain ⟨hField, hText⟩ := apply_scalar lib s delta
    obtain ⟨ihField, ihText⟩ := ih (s.apply lib delta).1
    rw [hStep, ihField, ihText, hField, hText, List.findSome?_cons]
    cases hLocked : s.scalarField with
    | some field => simp [String.append_assoc]
    | none =>
      cases hPreferred : delta.preferredField with
      | some field => simp [String.append_assoc]
      | none =>
        cases rest.findSome? StreamDelta.preferredField with
        | none => simp
        | some field => simp [scalar_eq_empty hPreferred field]

/-- The reasoning of some deltas, as their channels give it. -/
theorem finish_afterAll (lib : JsonLib) (deltas : List StreamDelta) :
    (afterAll lib {} deltas).finish lib =
      let field := deltas.findSome? StreamDelta.preferredField
      let scalar := (field.map fun field =>
        String.join (deltas.map fun delta => delta.scalar field)).getD ""
      let display := if scalar = "" then fragmentText (entriesOf lib deltas) else scalar
      { produced := !(entriesOf lib deltas).isEmpty || field.isSome
        display := if display = "" then none else some display
        artifact :=
          (((deltas.filterMap StreamDelta.reasoningDetails).foldl (DetailsStore.push lib)
            {}).finish lib).or
            (field.bind fun field => chatReasoningArtifact field scalar) } := by
  obtain ⟨hField, hText⟩ := afterAll_scalar lib {} deltas
  have hDisplay := afterAll_detailsText lib {} deltas
  have hProduced := afterAll_produced lib {} deltas
  have hDetails := afterAll_details lib {} deltas
  simp only [Option.none_or, String.empty_append, Bool.false_or] at hField hText hDisplay hProduced
  simp only [finish, hField, hText, hDisplay, hProduced, hDetails]

end ReasoningStreamState

theorem detailsFragments_whole {blocks : List Json} (h : ∀ block ∈ blocks, IsObject block) :
    DetailsFragments blocks [numbered 0 blocks] where
  object := h
  opens := by
    have hOpens := opensInOrder_numbered 0 blocks
    simpa using hOpens
  cut := by
    intro k block hBlock
    left
    have hEvents := eventsOf_numbered 0 k blocks
    rw [Nat.zero_add, hBlock] at hEvents
    simpa using hEvents

theorem toldApart_whole {blocks : List Json} (h : OwnSlots blocks) :
    ToldApart blocks [numbered 0 blocks] where
  slots := h
  unindexed := by
    intro delta hDelta k block hBlock _
    have hEvents := eventsOf_numbered 0 k blocks
    rw [Nat.zero_add, hBlock] at hEvents
    rw [List.mem_singleton.mp hDelta, hEvents]
    simp

section ChatFragments

variable {lib : JsonLib} {choice : Choice} {usage : Option Usage}
  {chunks : List ChatCompletionsStreamResponse} {details : List (List (Nat × Json))}

theorem takeDetails_eq (hObject : ∀ block ∈ choice.message.blocks lib, IsObject block)
    (hSlots : OwnSlots (choice.message.blocks lib)) :
    ((choice.message.reasoningDetails.toList).foldl (DetailsStore.push lib) {}).finish lib =
      if maxReasoningBytes < streamedBytes lib (choice.message.blocks lib) then none
      else replayArtifact lib (choice.message.blocks lib) := by
  unfold AssistantMessage.blocks at *
  cases hDetails : choice.message.reasoningDetails with
  | none => simp [DetailsStore.finish, replayArtifact]
  | some raw =>
    rw [hDetails, Option.map_some, Option.getD_some] at hObject hSlots
    have hFinish := @finish_foldl_push lib _ [raw] _ (detailsFragments_whole hObject)
      (toldApart_whole hSlots) (by simp)
    simpa using hFinish

/-- A stream carries structured entries exactly if the reply has any. -/
theorem DetailsFragments.isEmpty_eq {blocks : List Json} (h : DetailsFragments blocks details) :
    (details.flatten.map Prod.snd).isEmpty = blocks.isEmpty := by
  rw [Bool.eq_iff_iff, List.isEmpty_iff, List.isEmpty_iff, List.map_eq_nil_iff]
  constructor
  · intro hNone
    cases hBlocks : blocks with
    | nil => rfl
    | cons block rest =>
      have hFirst : blocks[0]? = some block := by rw [hBlocks]; rfl
      obtain ⟨first, more, hEvents, _⟩ :=
        (h.cut 0 block hFirst).exists_cons (h.object block (List.mem_of_getElem? hFirst))
      rw [hNone] at hEvents
      cases hEvents
  · intro hNone
    rw [List.eq_nil_iff_forall_not_mem]
    intro event hEvent
    have hLt := h.opens.lt_of_mem hEvent
    rw [hNone] at hLt
    exact absurd hLt (Nat.not_lt_zero _)

/-- The reasoning of a stream is that of the whole reply. -/
theorem reasoning_eq (h : ChatFragments lib choice usage chunks details)
    (hReadable : ChatStreamReadable lib choice chunks details) :
    (ReasoningStreamState.afterAll lib {} (streamDeltas chunks)).finish lib =
      choice.message.takeReasoning lib := by
  have hWhole : choice.message.takeReasoning lib =
      (ReasoningStreamState.afterAll lib {} [choice.message.reasoningDelta]).finish lib := rfl
  have hValues : [choice.message.reasoningDelta].filterMap StreamDelta.reasoningDetails =
      choice.message.reasoningDetails.toList := by
    cases hDetails : choice.message.reasoningDetails <;>
      simp [AssistantMessage.reasoningDelta, hDetails]
  have hBlocks : ReasoningStreamState.entriesOf lib [choice.message.reasoningDelta] =
      choice.message.blocks lib := by
    rw [ReasoningStreamState.entriesOf, hValues, AssistantMessage.blocks]
    cases choice.message.reasoningDetails <;> simp
  have hArtifact : ((streamDetails chunks).foldl (DetailsStore.push lib) {}).finish lib =
      (choice.message.reasoningDetails.toList.foldl (DetailsStore.push lib) {}).finish lib := by
    rw [finish_foldl_push h.details hReadable.apart h.details_eq,
      takeDetails_eq h.details.object hReadable.apart.slots]
    by_cases hCap : maxReasoningBytes < streamedBytes lib (choice.message.blocks lib)
    · rw [if_pos hCap, if_pos (hReadable.cap.mpr hCap)]
    · rw [if_neg hCap, if_neg fun hOver => hCap (hReadable.cap.mp hOver)]
  have hEntries : (ReasoningStreamState.entriesOf lib (streamDeltas chunks)).isEmpty =
      (choice.message.blocks lib).isEmpty := by
    have hFlat : ReasoningStreamState.entriesOf lib (streamDeltas chunks) =
        details.flatten.map Prod.snd := by
      rw [List.map_flatten, ← h.details_eq, ← List.flatMap_def]
      rfl
    rw [hFlat, h.details.isEmpty_eq]
  have hStream := ReasoningStreamState.finish_afterAll lib (streamDeltas chunks)
  have hReply := ReasoningStreamState.finish_afterAll lib [choice.message.reasoningDelta]
  have hField : [choice.message.reasoningDelta].findSome? StreamDelta.preferredField =
      choice.message.reasoningDelta.preferredField := by
    simp [List.findSome?_cons]
    cases choice.message.reasoningDelta.preferredField <;> rfl
  rw [hWhole, hStream, hReply]
  simp only [hReadable.field, hField, h.scalar, hValues, hBlocks, hEntries]
  rw [show (streamDeltas chunks).filterMap StreamDelta.reasoningDetails = streamDetails chunks
    from rfl, hArtifact]
  cases hPreferred : choice.message.reasoningDelta.preferredField with
  | none =>
    have hText := hReadable.text hPreferred
    rw [show (streamDetails chunks).flatMap (typedEntries lib) =
      ReasoningStreamState.entriesOf lib (streamDeltas chunks) from rfl] at hText
    simp [hText]
  | some field => simp [ReasoningStreamState.scalar_ne_empty hPreferred]

end ChatFragments

/-! ## The accumulator -/

namespace ChatCompletionsStreamAccumulator

/-- The accumulator after some choices whose call indices are all within bounds. -/
def extend (lib : JsonLib) (acc : ChatCompletionsStreamAccumulator) (choices : List StreamChoice) :
    ChatCompletionsStreamAccumulator :=
  let deltas := choices.filterMap StreamChoice.delta
  { acc with
    fullContent := acc.fullContent ++
      String.join (deltas.map fun delta => delta.content.getD "")
    reasoning := acc.reasoning.afterAll lib deltas
    rawToolCallDeltas := acc.rawToolCallDeltas ++
      deltas.flatMap fun delta => delta.toolCalls.getD []
    finishReason := (choices.filterMap StreamChoice.finishReason).getLast?.or acc.finishReason }

theorem extend_append (lib : JsonLib) (acc : ChatCompletionsStreamAccumulator)
    (choices more : List StreamChoice) :
    (acc.extend lib choices).extend lib more = acc.extend lib (choices ++ more) := by
  simp [extend, ReasoningStreamState.afterAll, String.append_assoc, List.getLast?_append,
    Option.or_assoc]

theorem applyChoice_eq (lib : JsonLib) {choice : StreamChoice}
    (h : ∀ call ∈ (choice.delta.bind StreamDelta.toolCalls).getD [], call.index < maxToolCalls)
    (acc : ChatCompletionsStreamAccumulator) :
    ∃ shown, acc.applyChoice lib choice = .ok (acc.extend lib [choice], shown) := by
  obtain ⟨delta, finishReason⟩ := choice
  have hFinish : ([(⟨delta, finishReason⟩ : StreamChoice)].filterMap
      StreamChoice.finishReason).getLast? = finishReason := by
    cases finishReason <;> rfl
  cases delta with
  | none =>
    refine ⟨[], ?_⟩
    simp only [applyChoice, extend, hFinish]
    simp [ReasoningStreamState.afterAll]
  | some delta =>
    have hBounds : (delta.toolCalls.getD []).find? (fun call => maxToolCalls ≤ call.index) =
        none := by
      rw [List.find?_eq_none]
      intro call hCall
      have hLt := h call hCall
      simpa using hLt
    refine ⟨(if delta.content.getD "" = "" then [] else
      [StreamEvent.answer (delta.content.getD "")]) ++
      (acc.reasoning.apply lib delta).2, ?_⟩
    simp only [applyChoice, hBounds, extend, hFinish]
    simp [ReasoningStreamState.afterAll]

theorem foldlM_applyNext (lib : JsonLib) {choices : List StreamChoice}
    (h : ∀ call ∈ (choices.filterMap StreamChoice.delta).flatMap fun d => d.toolCalls.getD [],
      call.index < maxToolCalls)
    (acc : ChatCompletionsStreamAccumulator) (shown : List StreamEvent) :
    ∃ shown', choices.foldlM (applyNext lib) (acc, shown) =
      .ok (acc.extend lib choices, shown') := by
  induction choices generalizing acc shown with
  | nil =>
    refine ⟨shown, ?_⟩
    simp [extend, ReasoningStreamState.afterAll, pure, Except.pure]
  | cons choice rest ih =>
    have hChoice : ∀ call ∈ (choice.delta.bind StreamDelta.toolCalls).getD [],
        call.index < maxToolCalls := by
      intro call hCall
      apply h call
      cases hDelta : choice.delta with
      | none => simp [hDelta] at hCall
      | some delta =>
        simp only [hDelta, Option.bind_some] at hCall
        simp [hDelta, hCall]
    have hRest : ∀ call ∈ (rest.filterMap StreamChoice.delta).flatMap fun d => d.toolCalls.getD [],
        call.index < maxToolCalls := by
      intro call hCall
      apply h call
      obtain ⟨delta, hDelta, hMem⟩ := List.mem_flatMap.mp hCall
      obtain ⟨c, hc, hEq⟩ := List.mem_filterMap.mp hDelta
      exact List.mem_flatMap.mpr
        ⟨delta, List.mem_filterMap.mpr ⟨c, List.mem_cons_of_mem choice hc, hEq⟩, hMem⟩
    obtain ⟨more, hStep⟩ := applyChoice_eq lib hChoice acc
    obtain ⟨shown', hTail⟩ := ih hRest (acc.extend lib [choice]) (shown ++ more)
    refine ⟨shown', ?_⟩
    rw [List.foldlM_cons, applyNext, hStep]
    rw [extend_append] at hTail
    exact hTail

/-- The accumulator after the chunks of a stream. -/
theorem applyAll_eq {lib : JsonLib} {chunks : List ChatCompletionsStreamResponse}
    (h : ∀ call ∈ streamToolCalls chunks, call.index < maxToolCalls)
    (acc : ChatCompletionsStreamAccumulator) :
    acc.applyAll lib chunks =
      .ok { acc.extend lib (streamChoices chunks) with
        lastUsage := ((chunks.filterMap ChatCompletionsStreamResponse.usage).getLast?.map
          Usage.toTokenUsage).or acc.lastUsage } := by
  induction chunks generalizing acc with
  | nil => simp [applyAll, extend, streamChoices, ReasoningStreamState.afterAll, pure, Except.pure]
  | cons chunk rest ih =>
    have hChunk : ∀ call ∈ (chunk.choices.filterMap StreamChoice.delta).flatMap
        fun d => d.toolCalls.getD [], call.index < maxToolCalls := by
      intro call hCall
      apply h call
      simp only [streamToolCalls, streamDeltas, streamChoices, List.flatMap_cons,
        List.filterMap_append, List.flatMap_append, List.mem_append]
      exact Or.inl hCall
    have hRest : ∀ call ∈ streamToolCalls rest, call.index < maxToolCalls := by
      intro call hCall
      apply h call
      simp only [streamToolCalls, streamDeltas, streamChoices, List.flatMap_cons,
        List.filterMap_append, List.flatMap_append, List.mem_append]
      exact Or.inr hCall
    have hUsage : (((chunk :: rest).filterMap ChatCompletionsStreamResponse.usage).getLast?.map
          Usage.toTokenUsage).or acc.lastUsage =
        ((rest.filterMap ChatCompletionsStreamResponse.usage).getLast?.map
          Usage.toTokenUsage).or ((chunk.usage.map Usage.toTokenUsage).or acc.lastUsage) := by
      cases hChunkUsage : chunk.usage with
      | none => simp [hChunkUsage]
      | some usage =>
        rw [List.filterMap_cons_some hChunkUsage, List.getLast?_cons]
        cases (rest.filterMap ChatCompletionsStreamResponse.usage).getLast? <;> rfl
    obtain ⟨shown, hApply⟩ := foldlM_applyNext lib hChunk
      { acc with lastUsage := (chunk.usage.map Usage.toTokenUsage).or acc.lastUsage } []
    have hStep : acc.applyAll lib (chunk :: rest) =
        applyAll lib (extend lib
          { acc with lastUsage := (chunk.usage.map Usage.toTokenUsage).or acc.lastUsage }
          chunk.choices) rest := by
      rw [applyAll, List.foldlM_cons, apply, hApply]
      rfl
    rw [hStep, ih hRest, extend_append, hUsage]
    rfl

end ChatCompletionsStreamAccumulator

/-! ## Agreement -/

/-- Leaving empty content out changes nothing but the content of a tool-call
turn. -/
theorem assembleTurn_filter_content (lib : JsonLib) (parts : TurnParts) :
    assembleTurn lib { parts with content := parts.content.filter (· ≠ "") } =
      (assembleTurn lib parts).map ChatTurnResult.withoutEmptyContent := by
  have hText : (parts.content.filter (· ≠ "")).getD "" = parts.content.getD "" := by
    cases parts.content with
    | none => rfl
    | some text => by_cases hEmpty : text = "" <;> simp [Option.filter, hEmpty]
  simp only [assembleTurn, TurnParts.answer, hText]
  split
  · rfl
  · split
    · split <;> rfl
    · split
      · rfl
      · split <;> rfl

/-- A streamed chat reply gives the turn of the whole reply. -/
theorem chatStream_eq {lib : JsonLib} {choice : Choice} {usage : Option Usage}
    {chunks : List ChatCompletionsStreamResponse} {details : List (List (Nat × Json))}
    (h : ChatFragments lib choice usage chunks details)
    (hReadable : ChatStreamReadable lib choice chunks details) :
    chatStream lib chunks =
      (chatCompletionsResponseToTurn lib ⟨[choice], usage⟩).map
        ChatTurnResult.withoutEmptyContent := by
  have hContent : (if "" ++ String.join ((streamDeltas chunks).map fun d => d.content.getD "") = ""
        then none
        else some ("" ++ String.join ((streamDeltas chunks).map fun d => d.content.getD ""))) =
      choice.message.content.filter (· ≠ "") := by
    rw [h.content, String.empty_append]
    cases choice.message.content with
    | none => rfl
    | some text => by_cases hEmpty : text = "" <;> simp [Option.filter, hEmpty]
  have hCalls := h.toolCalls.accumulate_eq
  have hReasoning := reasoning_eq h hReadable
  rw [chatStream, ChatCompletionsStreamAccumulator.applyAll_eq hReadable.indices]
  simp only [Except.bind, ChatCompletionsStreamAccumulator.intoTurnResult,
    ChatCompletionsStreamAccumulator.extend, chatCompletionsResponseToTurn, h.finishReason,
    Option.or_none, List.nil_append, h.usage]
  cases finishReasonTerminalError choice.finishReason with
  | some err => rfl
  | none =>
    rw [← assembleTurn_filter_content]
    simp only [streamDeltas, streamToolCalls] at hContent hCalls hReasoning
    simp only [← hContent, hCalls, hReasoning]
    rfl

theorem chatStream_eq_of_noChoices {lib : JsonLib} {chunks : List ChatCompletionsStreamResponse}
    (h : ∀ chunk ∈ chunks, chunk.choices = []) (usage : Option Usage) :
    chatStream lib chunks = chatCompletionsResponseToTurn lib ⟨[], usage⟩ := by
  have hChoices : streamChoices chunks = [] := by
    rw [streamChoices, List.flatMap_eq_nil_iff]
    exact h
  have hIndices : ∀ call ∈ streamToolCalls chunks, call.index < maxToolCalls := by
    intro call hCall
    simp [streamToolCalls, streamDeltas, hChoices] at hCall
  rw [chatStream, ChatCompletionsStreamAccumulator.applyAll_eq hIndices, hChoices]
  rfl

end Choreographr.Protocols
