import Choreographr.Protocols.LineSse
import Choreographr.Protocols.Proofs.Sse

/-!
# Chunk invariance of the line-based readers

Both readers return the same results however the stream is split, and nothing of what is
behind a `[DONE]`, with one exception: a `[DONE]` within an event of Anthropic's reader
leaves the event's data behind. Whether it is returned depends on whether a read finds
more of the stream, and so on the splitting (`lineReaders_iff`).
-/

namespace Choreographr.Protocols

open Session Lib

/-! ## Kinds of lines -/

/-- The value of a `data:` line. -/
def dataValue (line : Bytes) : Option String :=
  (fromUtf8 (stripLineEnd (line ++ [newline]))).toOption.bind fun text =>
    (stripPrefix "data:" text).map trimStart

def isDoneLine (line : Bytes) : Bool := dataValue line = some "[DONE]"

/-- A `data:` line that is no `[DONE]`. -/
def isDataLine (line : Bytes) : Bool := (dataValue line).any (· ≠ "[DONE]")

def isBlankLine (line : Bytes) : Bool := stripLineEnd (line ++ [newline]) = []

theorem dataValue_of_blank {line : Bytes} (h : stripLineEnd (line ++ [newline]) = []) :
    dataValue line = none := by
  rw [dataValue, h, fromUtf8_nil]
  rfl

theorem dataValue_of_error {line : Bytes} {e : ReadError}
    (h : fromUtf8 (stripLineEnd (line ++ [newline])) = .error e) : dataValue line = none := by
  rw [dataValue, h]
  rfl

theorem dataValue_of_text {line : Bytes} {text : String}
    (h : fromUtf8 (stripLineEnd (line ++ [newline])) = .ok text) :
    dataValue line = (stripPrefix "data:" text).map trimStart := by
  rw [dataValue, h]
  rfl

theorem stripPrefix_data_of_event {text value : String}
    (h : stripPrefix "event:" text = some value) : stripPrefix "data:" text = none := by
  rw [stripPrefix] at h ⊢
  split at h
  · rename_i hEvent
    rw [if_neg]
    intro hData
    rcases List.prefix_or_prefix_of_prefix hEvent hData with hPrefix | hPrefix
    · exact absurd hPrefix (by decide)
    · exact absurd hPrefix (by decide)
  · cases h

theorem doneLine_cases {line : Bytes} (h : isDoneLine line = true) :
    stripLineEnd (line ++ [newline]) ≠ [] ∧
      ∃ text, fromUtf8 (stripLineEnd (line ++ [newline])) = .ok text ∧
        ∃ value, stripPrefix "data:" text = some value ∧ trimStart value = "[DONE]" := by
  have hValue : dataValue line = some "[DONE]" := of_decide_eq_true h
  refine ⟨fun hBlank => ?_, ?_⟩
  · rw [dataValue_of_blank hBlank] at hValue
    cases hValue
  · cases hText : fromUtf8 (stripLineEnd (line ++ [newline])) with
    | error e =>
      rw [dataValue_of_error hText] at hValue
      cases hValue
    | ok text =>
      rw [dataValue_of_text hText] at hValue
      exact ⟨text, rfl, Option.map_eq_some_iff.mp hValue⟩

/-! ## Anthropic -/

namespace AnthropicSseState

variable {s : AnthropicSseState} {line : Bytes}

/-- What becomes of the data that is collected. -/
theorem onLine_cases (s : AnthropicSseState) (line : Bytes) :
    (s.onLine line).stops = isDoneLine line ∧
      (s.onLine line).state.currentData =
        if isBlankLine line then []
        else if isDataLine line then s.currentData ++ (dataValue line).toList
        else s.currentData := by
  unfold onLine
  dsimp only
  by_cases hBlank : stripLineEnd (line ++ [newline]) = []
  · have hNone := dataValue_of_blank hBlank
    rw [if_pos hBlank]
    by_cases hData : s.currentData = []
    · simp [isDoneLine, isBlankLine, hNone, hBlank, hData, LineStep.stops, LineStep.state]
    · simp [isDoneLine, isBlankLine, hNone, hBlank, hData, LineStep.stops, LineStep.state, takeEvent]
  · have hNotBlank : isBlankLine line = false := by simp [isBlankLine, hBlank]
    rw [if_neg hBlank, hNotBlank]
    cases hText : fromUtf8 (stripLineEnd (line ++ [newline])) with
    | error e =>
      have hNone := dataValue_of_error hText
      simp [isDoneLine, isDataLine, hNone, LineStep.stops, LineStep.state]
    | ok text =>
      have hValue := dataValue_of_text hText
      cases hEvent : stripPrefix "event:" text with
      | some value =>
        rw [stripPrefix_data_of_event hEvent] at hValue
        simp [isDoneLine, isDataLine, hValue, hEvent, LineStep.stops, LineStep.state]
      | none =>
        cases hData : stripPrefix "data:" text with
        | none =>
          rw [hData] at hValue
          simp [isDoneLine, isDataLine, hValue, hEvent, hData, LineStep.stops, LineStep.state]
        | some value =>
          rw [hData] at hValue
          by_cases hDone : trimStart value = "[DONE]"
          · simp [isDoneLine, isDataLine, hValue, hEvent, hData, hDone, LineStep.stops,
              LineStep.state]
          · simp [isDoneLine, isDataLine, hValue, hEvent, hData, hDone, LineStep.stops,
              LineStep.state]

theorem onLine_done (h : isDoneLine line = true) : s.onLine line = .stop s := by
  obtain ⟨hBlank, text, hText, value, hData, hDone⟩ := doneLine_cases h
  have hEvent : stripPrefix "event:" text = none := by
    cases hEvent : stripPrefix "event:" text with
    | none => rfl
    | some name =>
      rw [stripPrefix_data_of_event hEvent] at hData
      cases hData
  simp only [onLine, if_neg hBlank, hText, hEvent, hData, hDone, if_true]

end AnthropicSseState

/-! ## Gemini -/

namespace GeminiSseState

variable {s : GeminiSseState} {line : Bytes}

theorem onLine_stops (s : GeminiSseState) (line : Bytes) :
    (s.onLine line).stops = isDoneLine line := by
  unfold onLine
  dsimp only
  by_cases hBlank : stripLineEnd (line ++ [newline]) = []
  · have hNone := dataValue_of_blank hBlank
    rw [if_pos hBlank]
    by_cases hLines : s.lines = [] <;> simp [isDoneLine, hNone, hLines, LineStep.stops]
  · rw [if_neg hBlank]
    cases hText : fromUtf8 (stripLineEnd (line ++ [newline])) with
    | error e => simp [isDoneLine, dataValue_of_error hText, LineStep.stops]
    | ok text =>
      have hValue := dataValue_of_text hText
      cases hData : stripPrefix "data:" text with
      | none =>
        rw [hData] at hValue
        simp [isDoneLine, hValue, hData, LineStep.stops]
      | some value =>
        rw [hData] at hValue
        by_cases hDone : trimStart value = "[DONE]"
        · by_cases hLines : s.lines = [] <;>
            simp [isDoneLine, hValue, hData, hDone, hLines, LineStep.stops]
        · simp [isDoneLine, hValue, hData, hDone, LineStep.stops]

theorem onLine_done (h : isDoneLine line = true) :
    ((GeminiSseReader.onEnd s).1 = none ∧ GeminiSseReader.onLine s line = .stop s) ∨
      ∃ event, (GeminiSseReader.onEnd s).1 = some event ∧
        GeminiSseReader.onLine s line = .emitStop event {} := by
  obtain ⟨hBlank, text, hText, value, hData, hDone⟩ := doneLine_cases h
  simp only [GeminiSseReader, flushLines, onLine]
  by_cases hLines : s.lines = []
  · exact .inl (by simp [hBlank, hText, hData, hDone, hLines])
  · exact .inr (by simp [hBlank, hText, hData, hDone, hLines])

end GeminiSseState

/-! ## Streams -/

/-- The results of the calls do not depend on the splitting. -/
def SplitInvariant {σ ρ : Type} (M : LineMachine UInt8 σ ρ) (s : σ) (stream : Bytes) : Prop :=
  ∀ reads reads', Splits stream reads → Splits stream reads' →
    ∀ n, LineReader.nextAfter M ⟨[], s, false⟩ reads n =
      LineReader.nextAfter M ⟨[], s, false⟩ reads' n

/-- The lines before a `[DONE]` give all the results: those they would give without it
and without what is behind it, or the first of them. -/
def NothingBehindDone {σ ρ : Type} (M : LineMachine UInt8 σ ρ) (s : σ) (stream : Bytes) : Prop :=
  ∀ lines done rest, stream = joinLines newline (lines ++ [done]) ++ rest →
    (∀ line ∈ lines, newline ∉ line ∧ isDoneLine line = false) → newline ∉ done →
    isDoneLine done = true → ∀ reads reads', Splits stream reads →
      Splits (joinLines newline lines) reads' → ∀ n,
        LineReader.nextAfter M ⟨[], s, false⟩ reads n = none ∨
          LineReader.nextAfter M ⟨[], s, false⟩ reads n =
            LineReader.nextAfter M ⟨[], s, false⟩ reads' n

/-- The first `[DONE]` line is within an event: a `data:` line stands before it, without a
blank line between them. Behind it are bytes, and a read that ends the stream can hold
them together with the line's newline. -/
def CutByDone (stream : Bytes) : Prop :=
  ∃ before data between done rest,
    stream = joinLines newline (before ++ data :: between ++ [done]) ++ rest ∧
      (∀ line ∈ before ++ data :: between, newline ∉ line ∧ isDoneLine line = false) ∧
      isDataLine data = true ∧ (∀ line ∈ between, isBlankLine line = false) ∧
      newline ∉ done ∧ isDoneLine done = true ∧ rest ≠ [] ∧ rest.length < readBufferBytes

section Streams

variable {σ ρ : Type} {M : LineMachine UInt8 σ ρ} {s : σ} {stream : Bytes} {reads : List Bytes}

theorem nextAfter_of_splits (hSplits : Splits stream reads) (n : Nat) :
    LineReader.nextAfter M ⟨[], s, false⟩ reads n =
      ((M.walk s stream).1 ++ (LineReader.leftover M reads (M.walk s stream).2).toList)[n]? := by
  rw [LineReader.nextAfter_eq hSplits.nonempty, LineReader.toCome_of_open rfl, hSplits.flatten]
  rfl

/-- The walk up to the first `[DONE]`. -/
theorem walk_done (hSep : M.sep = newline)
    (hStops : ∀ s line, (M.onLine s line).stops = isDoneLine line) {lines : List Bytes}
    {done rest : Bytes} (hLines : ∀ line ∈ lines, newline ∉ line ∧ isDoneLine line = false)
    (hDone : newline ∉ done) :
    M.walk s (joinLines newline (lines ++ [done]) ++ rest) =
      (M.resultsOf s lines ++ (M.walkFrom rest (M.onLine (M.stateAfter s lines) done)).1,
        (M.walkFrom rest (M.onLine (M.stateAfter s lines) done)).2) := by
  have hWalk := @LineMachine.walk_lines _ _ _ _ M lines
    (fun line hLine => ⟨hSep ▸ (hLines line hLine).1, fun s =>
      (hStops s line).trans (hLines line hLine).2⟩) s (joinLines newline [done] ++ rest)
  rw [joinLines_append, List.append_assoc, ← hSep]
  rw [hSep] at hWalk ⊢
  rw [hWalk, joinLines_cons]
  have hCut : cutLine M.sep (done ++ newline :: (joinLines newline [] ++ rest)) =
      some (done, rest) := by
    rw [hSep]
    exact cutLine_eq_some_iff.mpr ⟨rfl, hDone⟩
  rw [LineMachine.walk_cut hCut]

/-- The walk over lines none of which is a `[DONE]`. -/
theorem walk_noDone (hSep : M.sep = newline)
    (hStops : ∀ s line, (M.onLine s line).stops = isDoneLine line) {lines : List Bytes}
    {tail : Bytes} (hLines : ∀ line ∈ lines, newline ∉ line ∧ isDoneLine line = false)
    (hTail : newline ∉ tail) :
    M.walk s (joinLines newline lines ++ tail) =
      (M.resultsOf s lines, .live (M.stateAfter s lines)) := by
  have hWalk := @LineMachine.walk_lines _ _ _ _ M lines
    (fun line hLine => ⟨hSep ▸ (hLines line hLine).1, fun s =>
      (hStops s line).trans (hLines line hLine).2⟩) s tail
  rw [hSep] at hWalk
  have hNone : M.walk (M.stateAfter s lines) tail = ([], .live (M.stateAfter s lines)) :=
    LineMachine.walk_none (by rw [hSep]; exact hTail)
  rw [hWalk, hNone, List.append_nil]

theorem splitInvariant_of_leftover
    (h : ∀ reads reads', Splits stream reads → Splits stream reads' →
      LineReader.leftover M reads (M.walk s stream).2 =
        LineReader.leftover M reads' (M.walk s stream).2) : SplitInvariant M s stream := by
  intro reads reads' hSplits hSplits' n
  rw [nextAfter_of_splits hSplits, nextAfter_of_splits hSplits', h reads reads' hSplits hSplits']

/-- A `[DONE]` brings at most what the end of the stream would. -/
theorem nothingBehindDone_of_done (hSep : M.sep = newline)
    (hStops : ∀ s line, (M.onLine s line).stops = isDoneLine line)
    (hDone : ∀ s line, isDoneLine line = true →
      M.onLine s line = .stop s ∨
        ∃ r s', (M.onEnd s).1 = some r ∧ M.onLine s line = .emitStop r s') :
    NothingBehindDone M s stream := by
  intro lines done rest hStream hLines hNewline hIsDone reads reads' hSplits hSplits' n
  have hFront := @walk_noDone σ ρ M s hSep hStops lines [] hLines List.not_mem_nil
  rw [List.append_nil] at hFront
  have hWalk := @walk_done σ ρ M s hSep hStops lines done rest hLines hNewline
  rw [← hStream] at hWalk
  rw [nextAfter_of_splits hSplits, nextAfter_of_splits hSplits', hFront, hWalk]
  rcases hDone (M.stateAfter s lines) done hIsDone with hStop | ⟨r, s', hEnd, hStop⟩
  · rw [hStop]
    generalize M.resultsOf s lines = results
    simp only [LineMachine.walkFrom, LineReader.leftover, List.append_nil]
    by_cases hLast : reads.getLast?.all (rest.length < ·.length) = true
    · right
      rw [if_pos hLast]
    · rw [if_neg hLast, Option.toList_none, List.append_nil]
      by_cases hShort : n < results.length
      · right
        rw [List.getElem?_append_left hShort]
      · left
        exact List.getElem?_eq_none (Nat.not_lt.mp hShort)
  · rw [hStop]
    right
    simp [LineMachine.walkFrom, LineReader.leftover, hEnd]

end Streams

/-! ## The readers -/

namespace AnthropicSseState

theorem onLine_stops (s : AnthropicSseState) (line : Bytes) :
    (s.onLine line).stops = isDoneLine line := (onLine_cases s line).1

theorem concat_eq_split {lines before between : List Bytes} {line data : Bytes}
    (h : lines ++ [line] = before ++ data :: between) :
    (between = [] ∧ data = line) ∨
      ∃ front, between = front ++ [line] ∧ lines = before ++ data :: front := by
  rcases List.eq_nil_or_concat between with rfl | ⟨front, last, rfl⟩
  · exact .inl ⟨rfl, (List.append_inj_right' h rfl |> List.cons.inj).1.symm⟩
  · right
    rw [List.concat_eq_append, ← List.cons_append, ← List.append_assoc] at h
    have hLast := (List.cons.inj (List.append_inj_right' h rfl)).1
    exact ⟨front, by rw [List.concat_eq_append, hLast], List.append_inj_left' h rfl⟩

/-- Data is collected exactly if a `data:` line stands behind the last blank line. -/
theorem currentData_stateAfter (lines : List Bytes) :
    (AnthropicSseReader.stateAfter {} lines).currentData ≠ [] ↔
      ∃ before data between, lines = before ++ data :: between ∧ isDataLine data = true ∧
        ∀ line ∈ between, isBlankLine line = false := by
  induction lines using List.reverseRecOn with
  | nil => simp [LineMachine.stateAfter]
  | append_singleton lines line ih =>
    have hState : AnthropicSseReader.stateAfter {} (lines ++ [line]) =
        ((AnthropicSseReader.stateAfter {} lines).onLine line).state := by
      rw [LineMachine.stateAfter, List.foldl_append]
      rfl
    rw [hState, (onLine_cases _ line).2]
    cases hBlank : isBlankLine line with
    | true =>
      rw [if_pos rfl]
      refine iff_of_false (fun hNe => hNe rfl) ?_
      rintro ⟨before, data, between, hEq, hData, hBetween⟩
      rcases concat_eq_split hEq with ⟨-, rfl⟩ | ⟨front, rfl, -⟩
      · rw [isDataLine, dataValue_of_blank (of_decide_eq_true hBlank)] at hData
        cases hData
      · rw [hBetween line (List.mem_append_right _ (List.mem_singleton_self _))] at hBlank
        cases hBlank
    | false =>
      rw [if_neg Bool.false_ne_true]
      cases hData : isDataLine line with
      | true =>
        rw [if_pos rfl]
        refine iff_of_true ?_ ⟨lines, line, [], rfl, hData, by simp⟩
        obtain ⟨value, hValue, -⟩ := (Option.any_eq_true _ _).mp hData
        rw [hValue]
        simp
      | false =>
        rw [if_neg Bool.false_ne_true, ih]
        constructor
        · rintro ⟨before, data, between, rfl, hIsData, hBetween⟩
          refine ⟨before, data, between ++ [line], by simp, hIsData, ?_⟩
          intro line' hMem
          rcases List.mem_append.mp hMem with hMem | hMem
          · exact hBetween line' hMem
          · rw [List.mem_singleton.mp hMem]
            exact hBlank
        · rintro ⟨before, data, between, hEq, hIsData, hBetween⟩
          rcases concat_eq_split hEq with ⟨-, rfl⟩ | ⟨front, rfl, rfl⟩
          · rw [hData] at hIsData
            cases hIsData
          · exact ⟨before, data, front, rfl, hIsData,
              fun line' hMem => hBetween line' (List.mem_append_left _ hMem)⟩

end AnthropicSseState

/-- Gemini's reader has nothing left at a silent close. -/
theorem gemini_splitInvariant (stream : Bytes) : SplitInvariant GeminiSseReader {} stream := by
  apply splitInvariant_of_leftover
  intro reads reads' _ _
  obtain ⟨lines, hLines, hStream⟩ := exists_lines newline isDoneLine stream
  rcases hStream with ⟨tail, hTail, rfl⟩ | ⟨done, rest, hNewline, hDone, rfl⟩
  · rw [walk_noDone rfl GeminiSseState.onLine_stops hLines hTail]
    rfl
  · rw [walk_done rfl GeminiSseState.onLine_stops hLines hNewline]
    rcases @GeminiSseState.onLine_done (GeminiSseReader.stateAfter {} lines) done hDone with
      ⟨hEnd, hStop⟩ | ⟨event, -, hStop⟩
    · rw [hStop]
      simp only [LineMachine.walkFrom, LineReader.leftover, hEnd, ite_self]
    · rw [hStop]
      rfl

theorem gemini_nothingBehindDone (stream : Bytes) :
    NothingBehindDone GeminiSseReader {} stream := by
  apply nothingBehindDone_of_done rfl GeminiSseState.onLine_stops
  intro s line hDone
  rcases GeminiSseState.onLine_done (s := s) hDone with ⟨-, hStop⟩ | ⟨event, hEnd, hStop⟩
  · exact .inl hStop
  · exact .inr ⟨event, {}, hEnd, hStop⟩

theorem anthropic_nothingBehindDone (stream : Bytes) :
    NothingBehindDone AnthropicSseReader {} stream :=
  nothingBehindDone_of_done rfl AnthropicSseState.onLine_stops
    fun _ _ hDone => .inl (AnthropicSseState.onLine_done hDone)

theorem anthropic_walk_done {lines : List Bytes} {done : Bytes} (rest : Bytes)
    (hLines : ∀ line ∈ lines, newline ∉ line ∧ isDoneLine line = false)
    (hNewline : newline ∉ done) (hDone : isDoneLine done = true) :
    AnthropicSseReader.walk {} (joinLines newline (lines ++ [done]) ++ rest) =
      (AnthropicSseReader.resultsOf {} lines,
        .silent (AnthropicSseReader.stateAfter {} lines) rest) := by
  have hStop : AnthropicSseReader.onLine (AnthropicSseReader.stateAfter {} lines) done =
      .stop (AnthropicSseReader.stateAfter {} lines) := AnthropicSseState.onLine_done hDone
  rw [walk_done rfl AnthropicSseState.onLine_stops hLines hNewline, hStop]
  exact Prod.ext (List.append_nil _) rfl

/-- The last read of a splitting is as long as the part of the stream it may hold. -/
theorem leftover_of_rest {reads : List Bytes} {front rest : Bytes} {s : AnthropicSseState}
    (hSplits : Splits (front ++ newline :: rest) reads)
    (hRest : rest = [] ∨ readBufferBytes ≤ rest.length) :
    LineReader.leftover AnthropicSseReader reads (.silent s rest) =
      if rest = [] then (AnthropicSseReader.onEnd s).1 else none := by
  have hReads : reads ≠ [] := by
    rintro rfl
    have hFlatten := hSplits.flatten
    simp at hFlatten
  obtain ⟨last, hLast⟩ : ∃ last, reads.getLast? = some last :=
    ⟨reads.getLast hReads, List.getLast?_eq_some_getLast hReads⟩
  have hMem : last ∈ reads := List.mem_of_getLast? hLast
  have hNonempty := List.length_pos_of_ne_nil (hSplits.nonempty last hMem)
  have hFits := hSplits.fits last hMem
  simp only [LineReader.leftover, hLast, Option.all_some, decide_eq_true_eq]
  rcases hRest with rfl | hLong
  · rw [if_pos rfl]
    exact if_pos hNonempty
  · have hBuffer : 0 < readBufferBytes := by decide
    have hSome : rest ≠ [] := List.ne_nil_of_length_pos (by omega)
    rw [if_neg (by omega), if_neg hSome]

theorem anthropic_finish {s : AnthropicSseState} :
    (AnthropicSseReader.onEnd s).1 = none ↔ s.currentData = [] := by
  change (AnthropicSseState.finishEvent s).1 = none ↔ _
  rw [AnthropicSseState.finishEvent]
  split
  · rename_i hEmpty
    exact iff_of_true rfl hEmpty
  · rename_i hData
    exact iff_of_false (Option.some_ne_none _) hData

theorem getElem?_append_toList {ρ : Type} (results : List ρ) (out : Option ρ) :
    (results ++ out.toList)[results.length]? = out := by
  rw [List.getElem?_append_right le_rfl, Nat.sub_self]
  cases out <;> rfl

/-- Two splittings of a stream: the line and the rest in one read, or in reads of a byte. -/
theorem exists_splits {front rest : Bytes} (hRest : rest ≠ [])
    (hShort : rest.length < readBufferBytes) :
    ∃ reads reads', Splits (front ++ newline :: rest) reads ∧
      Splits (front ++ newline :: rest) reads' ∧
      reads.getLast?.all (rest.length < ·.length) = true ∧
      reads'.getLast?.all (rest.length < ·.length) = false := by
  have hOne := @splits_singles (newline :: rest) front [] (List.cons_ne_nil newline rest) hShort
  have hSingles := @splits_singles [newline] front rest (List.cons_ne_nil newline []) (by decide)
  rw [List.append_nil] at hOne
  rw [List.append_assoc, List.singleton_append] at hSingles
  refine ⟨_, _, hOne, hSingles, ?_, ?_⟩
  · simp
  · obtain ⟨init, last, rfl⟩ := (List.eq_nil_or_concat rest).resolve_left hRest
    have hLast : front.map (fun b => [b]) ++ [newline] :: (init.concat last).map (fun b => [b]) =
        (front.map (fun b => [b]) ++ [newline] :: init.map (fun b => [b])) ++ [[last]] := by
      simp
    rw [hLast, List.getLast?_concat]
    simp

/-- Anthropic's reader depends on the splitting exactly when a `[DONE]` cuts an event. -/
theorem anthropic_splitInvariant_iff (stream : Bytes) :
    SplitInvariant AnthropicSseReader {} stream ↔ ¬CutByDone stream := by
  constructor
  · rintro hInvariant ⟨before, data, between, done, rest, rfl, hLines, hData, hBetween, hNewline,
      hDone, hRest, hShort⟩
    have hCollected := (AnthropicSseState.currentData_stateAfter
      (before ++ data :: between)).mpr ⟨before, data, between, rfl, hData, hBetween⟩
    have hWalk := anthropic_walk_done rest hLines hNewline hDone
    obtain ⟨reads, reads', hSplits, hSplits', hLast, hLast'⟩ :=
      @exists_splits (joinLines newline (before ++ data :: between) ++ done) rest hRest hShort
    have hBehind : joinLines newline (before ++ data :: between ++ [done]) ++ rest =
        (joinLines newline (before ++ data :: between) ++ done) ++ newline :: rest := by
      rw [joinLines_append]
      simp [joinLines]
    rw [← hBehind] at hSplits hSplits'
    have hSame := hInvariant reads reads' hSplits hSplits'
      (AnthropicSseReader.resultsOf {} (before ++ data :: between)).length
    rw [nextAfter_of_splits hSplits, nextAfter_of_splits hSplits', hWalk,
      getElem?_append_toList, getElem?_append_toList] at hSame
    simp only [LineReader.leftover, hLast, hLast', if_true] at hSame
    exact hCollected (anthropic_finish.mp hSame)
  · intro hNot
    obtain ⟨lines, hLines, hStream⟩ := exists_lines newline isDoneLine stream
    apply splitInvariant_of_leftover
    intro reads reads' hSplits hSplits'
    rcases hStream with ⟨tail, hTail, rfl⟩ | ⟨done, rest, hNewline, hDone, rfl⟩
    · rw [walk_noDone rfl AnthropicSseState.onLine_stops hLines hTail]
      rfl
    · rw [anthropic_walk_done rest hLines hNewline hDone]
      by_cases hCollected : (AnthropicSseReader.stateAfter {} lines).currentData = []
      · simp only [LineReader.leftover, anthropic_finish.mpr hCollected, ite_self]
      · have hRest : rest = [] ∨ readBufferBytes ≤ rest.length := by
          obtain ⟨before, data, between, rfl, hData, hBetween⟩ :=
            (AnthropicSseState.currentData_stateAfter lines).mp hCollected
          by_contra hBoth
          rw [not_or, Nat.not_le] at hBoth
          exact hNot ⟨before, data, between, done, rest, rfl, hLines, hData, hBetween, hNewline,
            hDone, hBoth.1, hBoth.2⟩
        have hBehind : joinLines newline (lines ++ [done]) ++ rest =
            (joinLines newline lines ++ done) ++ newline :: rest := by
          rw [joinLines_append]
          simp [joinLines]
        rw [hBehind] at hSplits hSplits'
        rw [leftover_of_rest hSplits hRest, leftover_of_rest hSplits' hRest]

/-- The line-based readers return the same results however a stream is split, and nothing
of what is behind a `[DONE]`, exactly when no `[DONE]` cuts an event. -/
theorem lineReaders_iff (stream : Bytes) :
    (SplitInvariant AnthropicSseReader {} stream ∧ SplitInvariant GeminiSseReader {} stream ∧
        NothingBehindDone AnthropicSseReader {} stream ∧
        NothingBehindDone GeminiSseReader {} stream) ↔
      ¬CutByDone stream := by
  rw [← anthropic_splitInvariant_iff]
  exact ⟨fun h => h.1, fun h => ⟨h, gemini_splitInvariant stream,
    anthropic_nothingBehindDone stream, gemini_nothingBehindDone stream⟩⟩

/-- `data:a`, `data:[DONE]` and a blank line. -/
def cutEventStream : Bytes :=
  [100, 97, 116, 97, 58, 97, 10] ++ [100, 97, 116, 97, 58, 91, 68, 79, 78, 69, 93, 10] ++ [10]

/-- Read at once the stream has an event, and in two reads it has none. -/
theorem cutEventStream_depends :
    Splits cutEventStream [cutEventStream] ∧ Splits cutEventStream [cutEventStream.take 19, [10]] ∧
      LineReader.nextAfter AnthropicSseReader ⟨[], {}, false⟩ [cutEventStream] 0 =
        some (.ok ("", "a")) ∧
      LineReader.nextAfter AnthropicSseReader ⟨[], {}, false⟩ [cutEventStream.take 19, [10]] 0 = none ∧
      ¬SplitInvariant AnthropicSseReader {} cutEventStream := by
  have hOne : Splits cutEventStream [cutEventStream] := ⟨rfl, by decide, by decide⟩
  have hTwo : Splits cutEventStream [cutEventStream.take 19, [10]] := ⟨rfl, by decide, by decide⟩
  have hEvent : LineReader.nextAfter AnthropicSseReader ⟨[], {}, false⟩ [cutEventStream] 0 =
      some (.ok ("", "a")) := by
    decide +kernel
  have hNone : LineReader.nextAfter AnthropicSseReader ⟨[], {}, false⟩
      [cutEventStream.take 19, [10]] 0 = none := by
    decide +kernel
  refine ⟨hOne, hTwo, hEvent, hNone, fun hInvariant => ?_⟩
  have hSame := hInvariant _ _ hOne hTwo 0
  rw [hEvent, hNone] at hSame
  cases hSame

end Choreographr.Protocols
