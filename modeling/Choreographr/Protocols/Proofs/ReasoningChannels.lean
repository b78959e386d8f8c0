import Choreographr.Protocols.Proofs.ChatStream

/-!
# One reasoning channel

The scalar fields and the structured array may both carry the reasoning of a turn. The
first channel that shows a fragment owns the display from then on, so what a subscriber
sees is the text of that channel alone. Both channels are captured, each from its own
part of the stream, and what the turn keeps of them does not depend on how the channels
were interleaved.
-/

namespace Choreographr.Protocols

open Session Lib

/-! ## The channels of a stream -/

/-- The structured fragments that a delta shows. -/
def StreamDelta.fragments (lib : JsonLib) (delta : StreamDelta) : List String :=
  ((delta.reasoningDetails.map (DetailsStore.valueEntries lib)).getD []).filterMap displayFragment

/-- The channel that a delta claims an unclaimed display for. -/
def StreamDelta.firstChannel (lib : JsonLib) (delta : StreamDelta) : DisplaySource :=
  if delta.fragments lib ≠ [] then .details
  else if delta.preferredField.isSome then .scalar
  else .unclaimed

/-- The channel that the first fragment to show came on. -/
def displayOwner (lib : JsonLib) (deltas : List StreamDelta) : DisplaySource :=
  (deltas.map (StreamDelta.firstChannel lib)).foldl DisplaySource.claim .unclaimed

/-- The texts of a delta on one channel, with the scalar field in use. -/
def StreamDelta.textsOf (lib : JsonLib) (delta : StreamDelta) (field : Option ChatReasoningField) :
    DisplaySource → List String
  | .unclaimed => []
  | .details => delta.fragments lib
  | .scalar => (field.map delta.scalar).toList.filter (· ≠ "")

namespace ReasoningStreamState

variable {lib : JsonLib} {s : ReasoningStreamState} {delta : StreamDelta}

/-- The events of a run, in their order. -/
def liveEvents (lib : JsonLib) (s : ReasoningStreamState) : List StreamDelta → List StreamEvent
  | [] => []
  | delta :: rest => (s.apply lib delta).2 ++ liveEvents lib (s.apply lib delta).1 rest

/-! ## One delta -/

/-- A scalar field is locked in no earlier than the display is claimed. -/
def Latched (s : ReasoningStreamState) : Prop :=
  s.display = .unclaimed → s.scalarField = none

/-- What folding one scalar field does to the display. -/
theorem applyScalar_display (s : ReasoningStreamState) (field : ChatReasoningField)
    (text : Option String) :
    (s.applyScalar field text).1.display =
        (if text.getD "" ≠ "" ∧ s.scalarField.getD field = field then s.display.claim .scalar
          else s.display) ∧
      (s.applyScalar field text).2 =
        (if text.getD "" ≠ "" ∧ s.scalarField.getD field = field ∧
            s.display.claim .scalar = .scalar then [.reasoning (text.getD "")] else []) := by
  unfold applyScalar
  cases text with
  | none => simp
  | some text =>
    by_cases hText : text = ""
    · simp [hText, Option.filter]
    · by_cases hField : s.scalarField.getD field = field
      · simp [hText, hField, Option.filter]
      · simp [hText, hField, Option.filter]

theorem afterDetails_display (lib : JsonLib) (s : ReasoningStreamState) (delta : StreamDelta) :
    (s.afterDetails lib delta).display =
      (if delta.fragments lib ≠ [] then s.display.claim .details else s.display) ∧
      (s.afterDetails lib delta).scalarField = s.scalarField := by
  unfold afterDetails StreamDelta.fragments
  cases hDetails : delta.reasoningDetails with
  | none => simp
  | some raw =>
    refine ⟨?_, rfl⟩
    simp only [Option.map_some, Option.getD_some, applyDetails, ne_eq, ite_not]

theorem apply_snd (lib : JsonLib) (s : ReasoningStreamState) (delta : StreamDelta) :
    (s.apply lib delta).2 =
      (if (s.afterDetails lib delta).display = .details
        then (delta.fragments lib).map .reasoning else []) ++
      ((s.afterDetails lib delta).applyScalar .reasoningContent delta.reasoningContent).2 ++
      (((s.afterDetails lib delta).applyScalar .reasoningContent
        delta.reasoningContent).1.applyScalar .reasoning delta.reasoning).2 ++
      ((((s.afterDetails lib delta).applyScalar .reasoningContent
        delta.reasoningContent).1.applyScalar .reasoning delta.reasoning).1.applyScalar
        .reasoningText delta.reasoningText).2 := by
  unfold apply afterDetails StreamDelta.fragments
  cases delta.reasoningDetails with
  | none => simp
  | some raw => rfl

/-- The text of the field in use. -/
def lockedText (s : ReasoningStreamState) (delta : StreamDelta) : String :=
  ((s.scalarField.or delta.preferredField).map delta.scalar).getD ""

/-- What the scalar fields of a delta do to the display: the text of the field in use
claims it, and is shown if the scalar channel owns it. -/
theorem applyScalars_display (s : ReasoningStreamState) (delta : StreamDelta) :
    (((s.applyScalar .reasoningContent delta.reasoningContent).1.applyScalar .reasoning
        delta.reasoning).1.applyScalar .reasoningText delta.reasoningText).1.display =
      (if s.lockedText delta = "" then s.display else s.display.claim .scalar) ∧
    (s.applyScalar .reasoningContent delta.reasoningContent).2 ++
        ((s.applyScalar .reasoningContent delta.reasoningContent).1.applyScalar .reasoning
          delta.reasoning).2 ++
        (((s.applyScalar .reasoningContent delta.reasoningContent).1.applyScalar .reasoning
          delta.reasoning).1.applyScalar .reasoningText delta.reasoningText).2 =
      (if s.lockedText delta ≠ "" ∧ s.display.claim .scalar = .scalar then
        [.reasoning (s.lockedText delta)] else []) := by
  obtain ⟨details, detailsText, produced, display, scalarField, scalarText⟩ := s
  simp only [(applyScalar_scalar _ _ _).1, (applyScalar_display _ _ _).1,
    (applyScalar_display _ _ _).2, lockedText, StreamDelta.preferredField, StreamDelta.scalar,
    List.find?_cons, List.find?_nil]
  cases scalarField with
  | some field =>
    cases field with
    | reasoningContent =>
      by_cases h : delta.reasoningContent.getD "" = "" <;> simp [h, StreamDelta.scalar]
    | reasoning => by_cases h : delta.reasoning.getD "" = "" <;> simp [h, StreamDelta.scalar]
    | reasoningText =>
      by_cases h : delta.reasoningText.getD "" = "" <;> simp [h, StreamDelta.scalar]
    | reasoningDetails => simp [StreamDelta.scalar]
  | none =>
    by_cases h₁ : delta.reasoningContent.getD "" = ""
    · by_cases h₂ : delta.reasoning.getD "" = ""
      · by_cases h₃ : delta.reasoningText.getD "" = ""
        · simp [h₁, h₂, h₃]
        · simp [h₁, h₂, h₃, StreamDelta.scalar]
      · simp [h₁, h₂, StreamDelta.scalar]
    · simp [h₁, StreamDelta.scalar]

/-- A delta claims an unclaimed display for its first channel, and shows its texts on the
channel that owns the display. -/
theorem apply_display (h : Latched s) :
    (s.apply lib delta).1.display = s.display.claim (delta.firstChannel lib) ∧
      (s.apply lib delta).2 =
        (delta.textsOf lib (s.scalarField.or delta.preferredField)
          (s.display.claim (delta.firstChannel lib))).map .reasoning := by
  obtain ⟨hDisplay, hField⟩ := afterDetails_display lib s delta
  obtain ⟨hScalars, hTexts⟩ := applyScalars_display (s.afterDetails lib delta) delta
  have hLocked : (s.afterDetails lib delta).lockedText delta =
      ((s.scalarField.or delta.preferredField).map delta.scalar).getD "" := by
    rw [lockedText, hField]
  have hScalar : delta.textsOf lib (s.scalarField.or delta.preferredField) .scalar =
      if (s.afterDetails lib delta).lockedText delta = "" then []
        else [(s.afterDetails lib delta).lockedText delta] := by
    rw [hLocked, StreamDelta.textsOf]
    cases (s.scalarField.or delta.preferredField).map delta.scalar with
    | none => rfl
    | some text => by_cases hText : text = "" <;> simp [hText]
  have hDetails : delta.textsOf lib (s.scalarField.or delta.preferredField) .details =
      delta.fragments lib := rfl
  have hNothing : delta.textsOf lib (s.scalarField.or delta.preferredField) .unclaimed = [] := rfl
  -- an unclaimed display has no field in use, so the delta's own field is the one it shows
  have hOwn : s.display = .unclaimed →
      (delta.preferredField.isSome ↔ (s.afterDetails lib delta).lockedText delta ≠ "") := by
    intro hUnclaimed
    rw [hLocked, h hUnclaimed, Option.none_or]
    cases hPreferred : delta.preferredField with
    | none => simp
    | some field => simpa using scalar_ne_empty hPreferred
  rw [apply_fst, apply_snd, hScalars, List.append_assoc, List.append_assoc,
    ← List.append_assoc _ _ (applyScalar _ .reasoningText _).2, hTexts, hDisplay]
  generalize (s.afterDetails lib delta).lockedText delta = text at hScalar hOwn ⊢
  cases hOwner : s.display with
  | unclaimed =>
    have hClaims := hOwn hOwner
    by_cases hFragments : delta.fragments lib = []
    · by_cases hText : text = ""
      · have hNone : delta.preferredField.isSome = false := by
          rw [Bool.eq_false_iff]
          exact fun hSome => hClaims.mp hSome hText
        simp [StreamDelta.firstChannel, DisplaySource.claim, hFragments, hText, hNone, hNothing]
      · have hSome : delta.preferredField.isSome = true := hClaims.mpr hText
        simp [StreamDelta.firstChannel, DisplaySource.claim, hFragments, hText, hSome, hScalar]
    · simp [StreamDelta.firstChannel, DisplaySource.claim, hFragments, hDetails]
  | scalar => by_cases hText : text = "" <;> simp [DisplaySource.claim, hText, hScalar]
  | details => simp [DisplaySource.claim, hDetails]

theorem Latched.apply (h : Latched s) : Latched (s.apply lib delta).1 := by
  intro hUnclaimed
  rw [(apply_display h).1] at hUnclaimed
  have hBefore : s.display = .unclaimed := by
    by_contra hClaimed
    rw [DisplaySource.claim, if_neg hClaimed] at hUnclaimed
    exact hClaimed hUnclaimed
  rw [hBefore, DisplaySource.claim, if_pos rfl, StreamDelta.firstChannel] at hUnclaimed
  rw [(apply_scalar lib s delta).1, h hBefore, Option.none_or]
  split at hUnclaimed
  · cases hUnclaimed
  · split at hUnclaimed
    · cases hUnclaimed
    · rename_i hNone
      simpa using hNone

/-! ## A run -/

theorem claim_claim (owner first second : DisplaySource) :
    (owner.claim first).claim second = owner.claim (first.claim second) := by
  cases owner <;> cases first <;> rfl

theorem foldl_claim (owner : DisplaySource) (sources : List DisplaySource) :
    sources.foldl DisplaySource.claim owner =
      owner.claim (sources.foldl DisplaySource.claim .unclaimed) := by
  induction sources generalizing owner with
  | nil => cases owner <;> rfl
  | cons source rest ih =>
    rw [List.foldl_cons, List.foldl_cons, ih, ih (DisplaySource.claim .unclaimed source),
      ← claim_claim, ← claim_claim]
    cases owner <;> rfl

theorem displayOwner_cons (lib : JsonLib) (delta : StreamDelta) (rest : List StreamDelta) :
    displayOwner lib (delta :: rest) = (delta.firstChannel lib).claim (displayOwner lib rest) := by
  rw [displayOwner, List.map_cons, List.foldl_cons, foldl_claim]
  rfl

/-- A delta shows nothing on a channel that a later delta is the first to claim. -/
theorem textsOf_of_unclaimed (h : delta.firstChannel lib = .unclaimed)
    (field : Option ChatReasoningField) (owner : DisplaySource) :
    delta.textsOf lib field owner = [] := by
  rw [StreamDelta.firstChannel] at h
  split at h
  · cases h
  · rename_i hFragments
    split at h
    · cases h
    · rename_i hNone
      have hPreferred : delta.preferredField = none := by simpa using hNone
      cases owner with
      | unclaimed => rfl
      | details => simpa [StreamDelta.textsOf] using hFragments
      | scalar =>
        cases field with
        | none => rfl
        | some field => simp [StreamDelta.textsOf, scalar_eq_empty hPreferred field]

/-- Channel and field of a delta that shows something are those of the whole run. -/
theorem textsOf_or_claim {owner later : DisplaySource} {field laterField : Option ChatReasoningField}
    (hOwner : owner = .unclaimed → delta.firstChannel lib = .unclaimed)
    (hField : field = none → delta.preferredField = none) :
    delta.textsOf lib field owner = delta.textsOf lib (field.or laterField) (owner.claim later) := by
  cases owner with
  | unclaimed => exact (textsOf_of_unclaimed (hOwner rfl) _ _).symm
  | details => rfl
  | scalar =>
    cases field with
    | some field => rfl
    | none =>
      have hPreferred := hField rfl
      cases laterField with
      | none => rfl
      | some field =>
        simp [StreamDelta.textsOf, DisplaySource.claim, scalar_eq_empty hPreferred field]

/-- What a run shows: the texts of each delta on the channel that owns the display, with
the scalar field that was locked in. -/
theorem liveEvents_eq (h : Latched s) (deltas : List StreamDelta) :
    s.liveEvents lib deltas =
      (deltas.flatMap fun delta =>
        delta.textsOf lib (s.scalarField.or (deltas.findSome? StreamDelta.preferredField))
          (s.display.claim (displayOwner lib deltas))).map .reasoning := by
  induction deltas generalizing s with
  | nil => rfl
  | cons delta rest ih =>
    obtain ⟨hDisplay, hEvents⟩ := @apply_display lib s delta h
    obtain ⟨hField, -⟩ := apply_scalar lib s delta
    have hFirst : (delta :: rest).findSome? StreamDelta.preferredField =
        delta.preferredField.or (rest.findSome? StreamDelta.preferredField) := by
      rw [List.findSome?_cons]
      cases delta.preferredField <;> rfl
    rw [liveEvents, ih h.apply, hEvents, hDisplay, hField, displayOwner_cons, ← claim_claim, hFirst,
      ← Option.or_assoc, List.flatMap_cons, List.map_append]
    congr 2
    apply textsOf_or_claim
    · intro hUnclaimed
      cases hOwner : s.display with
      | unclaimed => simpa [DisplaySource.claim, hOwner] using hUnclaimed
      | scalar => simp [DisplaySource.claim, hOwner] at hUnclaimed
      | details => simp [DisplaySource.claim, hOwner] at hUnclaimed
    · exact fun hNone => (Option.or_eq_none_iff.mp hNone).2

end ReasoningStreamState

/-! ## One channel -/

/-- The texts of a stream on one channel. -/
def channelTexts (lib : JsonLib) (deltas : List StreamDelta) : DisplaySource → List String
  | .unclaimed => []
  | .details => deltas.flatMap (StreamDelta.fragments lib)
  | .scalar => ((deltas.findSome? StreamDelta.preferredField).map fun field =>
      (deltas.map fun delta => delta.scalar field).filter (· ≠ "")).getD []

theorem flatMap_textsOf (lib : JsonLib) (deltas : List StreamDelta) (owner : DisplaySource) :
    (deltas.flatMap fun delta =>
      delta.textsOf lib (deltas.findSome? StreamDelta.preferredField) owner) =
      channelTexts lib deltas owner := by
  cases owner with
  | unclaimed => simp [StreamDelta.textsOf, channelTexts]
  | details => rfl
  | scalar =>
    simp only [channelTexts]
    generalize deltas.findSome? StreamDelta.preferredField = field
    cases field with
    | none => simp [StreamDelta.textsOf]
    | some field =>
      induction deltas with
      | nil => rfl
      | cons delta rest ih =>
        rw [List.flatMap_cons, ih]
        by_cases hText : delta.scalar field = "" <;> simp [StreamDelta.textsOf, hText]

/-- The scalar parts of a stream, in their order. -/
def scalarParts (deltas : List StreamDelta) : List (ChatReasoningField → String) :=
  (deltas.filter fun delta => delta.preferredField.isSome).map StreamDelta.scalar

/-- The scalar field that the first part of the channel is read by. -/
def lockedField (scalars : List (ChatReasoningField → String)) : Option ChatReasoningField :=
  scalars.head?.bind fun scalar =>
    [ChatReasoningField.reasoningContent, .reasoning, .reasoningText].find? fun field =>
      scalar field ≠ ""

/-- What a turn keeps of its two channels: the details outrank the scalar text as the
artifact, and the scalar text outranks the details as the display. -/
def channelReasoning (lib : JsonLib) (details : List Json)
    (scalars : List (ChatReasoningField → String)) : TurnReasoning :=
  let field := lockedField scalars
  let scalar := (field.map fun field =>
    String.join (scalars.map fun scalar => scalar field)).getD ""
  let display := if scalar = "" then fragmentText (details.flatMap (typedEntries lib)) else scalar
  { produced := !(details.flatMap (typedEntries lib)).isEmpty || field.isSome
    display := if display = "" then none else some display
    artifact := ((details.foldl (DetailsStore.push lib) {}).finish lib).or
      (field.bind fun field => chatReasoningArtifact field scalar) }

theorem findSome?_scalarParts (deltas : List StreamDelta) :
    deltas.findSome? StreamDelta.preferredField = lockedField (scalarParts deltas) := by
  induction deltas with
  | nil => rfl
  | cons delta rest ih =>
    rw [List.findSome?_cons]
    cases hPreferred : delta.preferredField with
    | none => simpa [scalarParts, hPreferred] using ih
    | some own =>
      have hHead : (scalarParts (delta :: rest)).head? = some delta.scalar := by
        simp [scalarParts, hPreferred]
      rw [lockedField, hHead, Option.bind_some]
      exact hPreferred.symm

theorem join_scalarParts (deltas : List StreamDelta) (field : ChatReasoningField) :
    String.join (deltas.map fun delta => delta.scalar field) =
      String.join ((scalarParts deltas).map fun scalar => scalar field) := by
  induction deltas with
  | nil => rfl
  | cons delta rest ih =>
    cases hPreferred : delta.preferredField with
    | none =>
      have hEmpty := ReasoningStreamState.scalar_eq_empty hPreferred field
      simpa [scalarParts, hPreferred, hEmpty] using ih
    | some own =>
      have hCons : scalarParts (delta :: rest) = delta.scalar :: scalarParts rest := by
        simp [scalarParts, hPreferred]
      rw [hCons, List.map_cons, List.map_cons, String.join_cons, String.join_cons, ih]

/-- One reasoning channel: the live fragments are the texts of the channel that claimed
the display, the scalar capture is the text of the field that was locked in, whether
reasoning was produced does not depend on what the capture kept, and what the turn keeps
is the same for every order in which the channels arrive. -/
theorem one_reasoning_channel (lib : JsonLib) (deltas : List StreamDelta) :
    ReasoningStreamState.liveEvents lib {} deltas =
        (channelTexts lib deltas (displayOwner lib deltas)).map .reasoning ∧
      (ReasoningStreamState.afterAll lib {} deltas).scalarText =
        ((ReasoningStreamState.afterAll lib {} deltas).scalarField.map fun field =>
          String.join (deltas.map fun delta => delta.scalar field)).getD "" ∧
      (∀ lib' : JsonLib, lib'.fromStr = lib.fromStr →
        ((ReasoningStreamState.afterAll lib' {} deltas).finish lib').produced =
          ((ReasoningStreamState.afterAll lib {} deltas).finish lib).produced) ∧
      (ReasoningStreamState.afterAll lib {} deltas).finish lib =
        channelReasoning lib (deltas.filterMap StreamDelta.reasoningDetails)
          (scalarParts deltas) := by
  refine ⟨?_, ?_, ?_, ?_⟩
  · have hStart : ReasoningStreamState.Latched {} := fun _ => rfl
    rw [ReasoningStreamState.liveEvents_eq hStart, Option.none_or]
    exact congrArg (List.map _) (flatMap_textsOf lib deltas _)
  · obtain ⟨hField, hText⟩ := ReasoningStreamState.afterAll_scalar lib {} deltas
    rw [hField, hText, String.empty_append]
  · intro lib' hParse
    have hTyped : typedEntries lib' = typedEntries lib := by
      funext raw
      simp only [typedEntries, DetailsStore.valueEntries, hParse]
    rw [ReasoningStreamState.finish_afterAll, ReasoningStreamState.finish_afterAll]
    simp only [ReasoningStreamState.entriesOf, hTyped]
  · rw [ReasoningStreamState.finish_afterAll]
    simp only [ReasoningStreamState.entriesOf, findSome?_scalarParts, join_scalarParts,
      channelReasoning]

/-- The same thought on both channels. -/
def bothChannels : List StreamDelta :=
  [{ reasoningContent := some "a"
     reasoningDetails := some (.arr [.obj [("text", .str "a"), ("type", .str "reasoning.text")]]) }]

/-- `serde_json` where every payload is empty, and where none fits the cap. -/
def emptyPayloads : JsonLib := ⟨fun _ => none, fun _ => [], fun _ => none⟩
def longPayloads : JsonLib :=
  ⟨fun _ => none, fun _ => List.replicate (maxReasoningBytes + 1) 0, fun _ => none⟩

/-- The thought is shown once, and counts as produced also where no payload fits the cap. -/
theorem one_reasoning_channel_both :
    ReasoningStreamState.liveEvents emptyPayloads {} bothChannels = [.reasoning "a"] ∧
      ((ReasoningStreamState.afterAll longPayloads {} bothChannels).finish longPayloads).produced =
        true := by
  obtain ⟨hLive, -, hProduced, -⟩ := one_reasoning_channel emptyPayloads bothChannels
  have hParse : longPayloads.fromStr = emptyPayloads.fromStr := rfl
  have hEmpty : ((ReasoningStreamState.afterAll emptyPayloads {} bothChannels).finish
      emptyPayloads).produced = true := by decide
  exact ⟨hLive.trans rfl, (hProduced longPayloads hParse).trans hEmpty⟩

end Choreographr.Protocols
