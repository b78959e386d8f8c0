import Choreographr.Tools.TextStream

/-!
# Line streaming is exact

Whatever windows the reader shows, a capped read takes the line it stands on up to the cap, and
draining takes the rest of that line. So the items are the lines of the file. A line counts with
its newline: one whose newline is all that is behind the cap is marked as cut.
-/

namespace Choreographr.Tools

open Lib Session

theorem newline_iff (b : UInt8) : (b == newline) = true ↔ b = newline := beq_iff_eq

/-! ## One line -/

theorem BufReader.take_available (r : BufReader) (n : Nat) :
    r.available.take n ++ r.rest.drop (r.available.take n).length = r.rest := by
  have hPrefix : r.available.take n <+: r.rest :=
    (List.take_prefix n _).trans (List.take_prefix _ _)
  obtain ⟨more, hMore⟩ := hPrefix
  have hDrop : r.rest.drop (r.available.take n).length = more := by
    have hLeft : (r.available.take n ++ more).drop (r.available.take n).length = more :=
      List.drop_left
    rwa [hMore] at hLeft
  rw [hDrop, hMore]

theorem readLineCappedLoop_spec (cap : Nat) (r : BufReader) (buf : Bytes)
    (hBuf : buf.length ≤ cap) :
    (buf.length + (firstLine newline r.rest).length ≤ cap →
      (readLineCappedLoop cap r buf).2 = (buf ++ firstLine newline r.rest, true) ∧
        (readLineCappedLoop cap r buf).1.rest =
          r.rest.drop (firstLine newline r.rest).length) ∧
    (cap < buf.length + (firstLine newline r.rest).length →
      (readLineCappedLoop cap r buf).2 =
          (buf ++ (firstLine newline r.rest).take (cap - buf.length), false) ∧
        (readLineCappedLoop cap r buf).1.rest = r.rest.drop (cap - buf.length)) := by
  fun_induction readLineCappedLoop cap r buf with
  | case1 r buf hNone =>
    have hRest : r.rest = [] := BufReader.available_eq_nil.mp hNone
    rw [hRest]
    constructor
    · intro _
      simp [firstLine, BufReader.filled, hRest]
    · intro hLt
      simp only [firstLine, List.length_nil] at hLt
      omega
  | case2 r buf hSome remaining hFull =>
    have hLine : 0 < (firstLine newline r.rest).length := by
      rw [List.length_pos_iff, Ne, firstLine_eq_nil, ← BufReader.available_eq_nil]
      exact hSome
    constructor
    · intro hLe
      omega
    · intro _
      rw [show cap - buf.length = 0 from hFull, List.take_zero, List.append_nil, List.drop_zero]
      exact ⟨rfl, rfl⟩
  | case3 r buf hSome remaining hRoom window idx hFound =>
    have hSplit := r.take_available remaining
    obtain ⟨hLine, hIdx⟩ := firstLine_of_findIdx? newline_iff hFound
      (r.rest.drop (r.available.take remaining).length)
    rw [hSplit] at hLine
    have hLength : idx < (r.available.take remaining).length := hIdx
    rw [List.length_take] at hLength
    have hTake : r.available.take (idx + 1) = firstLine newline r.rest := by
      rw [hLine]
      change r.available.take (idx + 1) = (r.available.take remaining).take (idx + 1)
      rw [List.take_take, Nat.min_eq_left (by omega)]
    have hLineLength : (firstLine newline r.rest).length = idx + 1 := by
      rw [← hTake, List.length_take]
      omega
    constructor
    · intro _
      rw [hTake, hLineLength]
      exact ⟨rfl, rfl⟩
    · intro hLt
      rw [hLineLength] at hLt
      omega
  | case4 r buf hSome remaining hRoom window hNone ih =>
    have hSplit := r.take_available remaining
    have hFree : newline ∉ r.available.take remaining :=
      notMem_of_findIdx?_eq_none newline_iff hNone
    have hLine : firstLine newline r.rest =
        window ++ firstLine newline (r.rest.drop window.length) := by
      conv_lhs => rw [← hSplit]
      exact firstLine_append_of_notMem hFree _
    have hWindow : window.length ≤ remaining := List.length_take_le _ _
    have hRest : (r.filled.consume window.length).rest = r.rest.drop window.length := rfl
    obtain ⟨hFits, hOver⟩ := ih (by rw [List.length_append]; omega)
    rw [hRest, List.length_append] at hFits hOver
    rw [hLine, List.length_append]
    constructor
    · intro hLe
      obtain ⟨hResult, hBehind⟩ := hFits (by omega)
      rw [hResult, hBehind, List.append_assoc, List.drop_drop]
      exact ⟨rfl, rfl⟩
    · intro hLt
      obtain ⟨hResult, hBehind⟩ := hOver (by omega)
      rw [hResult, hBehind, List.append_assoc, List.drop_drop, List.take_append,
        List.take_of_length_le hWindow]
      have hLeft : cap - (buf.length + window.length) = remaining - window.length := by omega
      have hSum : window.length + (remaining - window.length) = remaining := by omega
      rw [hLeft, hSum]
      exact ⟨rfl, rfl⟩

theorem drainRestOfLine_spec (r : BufReader) (drained : Nat) :
    (drainRestOfLine r drained).2 = drained + (firstLine newline r.rest).length ∧
      (drainRestOfLine r drained).1.rest = r.rest.drop (firstLine newline r.rest).length := by
  fun_induction drainRestOfLine r drained with
  | case1 r drained hNone =>
    have hRest : r.rest = [] := BufReader.available_eq_nil.mp hNone
    simp [firstLine, BufReader.filled, hRest]
  | case2 r drained hSome idx hFound =>
    have hSplit := r.take_available r.available.length
    rw [List.take_length] at hSplit
    obtain ⟨hLine, hIdx⟩ := firstLine_of_findIdx? newline_iff hFound
      (r.rest.drop r.available.length)
    rw [hSplit] at hLine
    have hLength : (firstLine newline r.rest).length = idx + 1 := by
      rw [hLine, List.length_take]
      omega
    rw [hLength]
    exact ⟨rfl, rfl⟩
  | case3 r drained hSome hNone ih =>
    have hSplit := r.take_available r.available.length
    rw [List.take_length] at hSplit
    have hFree : newline ∉ r.available := notMem_of_findIdx?_eq_none newline_iff hNone
    have hLine : firstLine newline r.rest =
        r.available ++ firstLine newline (r.rest.drop r.available.length) := by
      conv_lhs => rw [← hSplit]
      exact firstLine_append_of_notMem hFree _
    have hRest : (r.filled.consume r.available.length).rest = r.rest.drop r.available.length := rfl
    obtain ⟨hCount, hBehind⟩ := ih
    rw [hRest] at hCount hBehind
    rw [hCount, hBehind, hLine, List.length_append, List.drop_drop]
    exact ⟨Nat.add_assoc _ _ _, rfl⟩

namespace TextStream

/-! ## One item -/

/-- What an item changes. -/
structure Advanced (s s' : TextStream) (line : Bytes) : Prop where
  lineBuf : s'.lineBuf = line.take maxLineDisplayBytes
  linesRead : s'.linesRead = s.linesRead + 1
  totalBytes : s'.totalBytes = s.totalBytes + line.length
  rest : s'.reader.rest = s.reader.rest.drop line.length
  finished : s'.finished = false

theorem advance_end {s : TextStream} (hOpen : s.finished = false) (hRest : s.reader.rest = []) :
    s.advance.2 = none ∧ s.advance.1.linesRead = s.linesRead ∧
      s.advance.1.totalBytes = s.totalBytes := by
  have hSpec := (readLineCappedLoop_spec maxLineDisplayBytes s.reader [] (Nat.zero_le _)).1
  rw [hRest] at hSpec
  obtain ⟨hResult, -⟩ := hSpec (Nat.zero_le _)
  have hBuf : (readLineCapped maxLineDisplayBytes s.reader).2.1 = [] := congrArg Prod.fst hResult
  simp [advance, hOpen, hBuf]

theorem advance_line {s : TextStream} (hOpen : s.finished = false) (hRest : s.reader.rest ≠ []) :
    s.advance.2 = some ⟨s.linesRead + 1,
        decide ((firstLine newline s.reader.rest).length ≤ maxLineDisplayBytes), s.totalBytes⟩ ∧
      Advanced s s.advance.1 (firstLine newline s.reader.rest) := by
  obtain ⟨hFits, hOver⟩ :=
    readLineCappedLoop_spec maxLineDisplayBytes s.reader [] (Nat.zero_le _)
  have hLine : firstLine newline s.reader.rest ≠ [] := fun h => hRest (firstLine_eq_nil.mp h)
  have hPos := List.length_pos_of_ne_nil hLine
  have hCap : 0 < maxLineDisplayBytes := by decide
  simp only [List.length_nil, Nat.zero_add, Nat.sub_zero, List.nil_append] at hFits hOver
  change (_ ≤ maxLineDisplayBytes → (readLineCapped maxLineDisplayBytes s.reader).2 = _ ∧
    (readLineCapped maxLineDisplayBytes s.reader).1.rest = _) at hFits
  change (maxLineDisplayBytes < _ → (readLineCapped maxLineDisplayBytes s.reader).2 = _ ∧
    (readLineCapped maxLineDisplayBytes s.reader).1.rest = _) at hOver
  rcases Nat.lt_or_ge maxLineDisplayBytes (firstLine newline s.reader.rest).length with hLong | hLe
  · obtain ⟨hResult, hBehind⟩ := hOver hLong
    have hBuf := congrArg Prod.fst hResult
    have hComplete := congrArg Prod.snd hResult
    have hTake : (firstLine newline s.reader.rest).take maxLineDisplayBytes ≠ [] := by
      rw [Ne, List.take_eq_nil_iff, not_or]
      exact ⟨hCap.ne', hLine⟩
    -- The rest of the line is drained.
    obtain ⟨hDrained, hAfter⟩ :=
      drainRestOfLine_spec (readLineCapped maxLineDisplayBytes s.reader).1 0
    rw [hBehind, firstLine_drop hLong] at hDrained hAfter
    rw [List.length_drop, List.drop_drop] at hAfter
    rw [List.length_drop] at hDrained
    simp only [advance, hOpen, Bool.false_eq_true, if_false, hBuf, hComplete, if_neg hTake]
    have hSum : maxLineDisplayBytes +
        ((firstLine newline s.reader.rest).length - maxLineDisplayBytes) =
          (firstLine newline s.reader.rest).length := Nat.add_sub_of_le hLong.le
    refine ⟨by rw [decide_eq_false (Nat.not_le.mpr hLong)], rfl, rfl, ?_, ?_, rfl⟩
    · simp only [hDrained, List.length_take, Nat.zero_add, Nat.min_eq_left hLong.le, hSum]
    · rw [hAfter, hSum]
  · obtain ⟨hResult, hBehind⟩ := hFits hLe
    have hBuf := congrArg Prod.fst hResult
    have hComplete := congrArg Prod.snd hResult
    simp only [advance, hOpen, Bool.false_eq_true, if_false, hBuf, hComplete, if_neg hLine, if_true]
    exact ⟨by rw [decide_eq_true hLe], (List.take_of_length_le hLe).symm, rfl, rfl, hBehind, rfl⟩

theorem advance_shrinks {s s' : TextStream} {item : StreamedLineMeta}
    (h : s.advance = (s', some item)) : s'.reader.rest.length < s.reader.rest.length := by
  cases hOpen : s.finished with
  | true =>
    rw [advance, hOpen, if_pos rfl] at h
    cases h
  | false =>
    by_cases hRest : s.reader.rest = []
    · have hNone := (advance_end hOpen hRest).1
      rw [h] at hNone
      cases hNone
    · have hStep := (advance_line hOpen hRest).2.rest
      rw [h] at hStep
      have hPos : 0 < (firstLine newline s.reader.rest).length := by
        rw [List.length_pos_iff, Ne, firstLine_eq_nil]
        exact hRest
      have hText := List.length_pos_of_ne_nil hRest
      rw [hStep, List.length_drop]
      omega

theorem next_parts {s s' : TextStream} {item : Option StreamedLine} (h : s.next = (s', item)) :
    s.advance.1 = s' ∧ (s.advance.2.map fun line =>
      ⟨line.lineNumber, s'.lineBuf, line.complete, line.startOffset⟩) = item := by
  have hNext : s.next = (s.advance.1, s.advance.2.map fun line =>
      ⟨line.lineNumber, s.advance.1.lineBuf, line.complete, line.startOffset⟩) := rfl
  rw [hNext] at h
  obtain ⟨hState, hItem⟩ := Prod.mk.inj h
  exact ⟨hState, by rw [← hState]; exact hItem⟩

theorem next_shrinks {s s' : TextStream} {item : StreamedLine} (h : s.next = (s', some item)) :
    s'.reader.rest.length < s.reader.rest.length := by
  obtain ⟨hState, hItem⟩ := next_parts h
  obtain ⟨line, hLine, -⟩ := Option.map_eq_some_iff.mp hItem
  exact advance_shrinks (Prod.ext hState hLine)

/-! ## All items -/

/-- The items up to the end, and the stream behind them. -/
def collect (s : TextStream) : List StreamedLine × TextStream :=
  match h : s.next with
  | (s', none) => ([], s')
  | (s', some line) =>
      have : s'.reader.rest.length < s.reader.rest.length := next_shrinks h
      (line :: s'.collect.1, s'.collect.2)
termination_by s.reader.rest.length

def drainCounting (s : TextStream) : TextStream :=
  match h : s.advance with
  | (s', none) => s'
  | (s', some _) =>
      have : s'.reader.rest.length < s.reader.rest.length := advance_shrinks h
      s'.drainCounting
termination_by s.reader.rest.length

/-- The items of these lines, from a line number and an offset on. -/
def streamedLines (number offset : Nat) : List Bytes → List StreamedLine
  | [] => []
  | line :: rest =>
      ⟨number, line.take maxLineDisplayBytes, decide (line.length ≤ maxLineDisplayBytes),
        offset⟩ :: streamedLines (number + 1) (offset + line.length) rest

theorem streamedLines_getElem? (number offset : Nat) (lines : List Bytes) (i : Nat) :
    (streamedLines number offset lines)[i]? = lines[i]?.map fun line =>
      ⟨number + i, line.take maxLineDisplayBytes, decide (line.length ≤ maxLineDisplayBytes),
        offset + (lines.take i).flatten.length⟩ := by
  induction lines generalizing number offset i with
  | nil => rfl
  | cons line rest ih =>
    cases i with
    | zero => rfl
    | succ i =>
      rw [streamedLines, List.getElem?_cons_succ, ih, List.getElem?_cons_succ, List.take_succ_cons,
        List.flatten_cons, List.length_append, Nat.add_assoc, Nat.add_assoc, Nat.add_comm 1 i]

/-- The items are those of the lines that are left, and the totals count all of them. -/
theorem collect_eq {s : TextStream} (hOpen : s.finished = false) :
    s.collect.1 =
        streamedLines (s.linesRead + 1) s.totalBytes (splitLines newline s.reader.rest) ∧
      s.collect.2.linesRead = s.linesRead + (splitLines newline s.reader.rest).length ∧
      s.collect.2.totalBytes = s.totalBytes + s.reader.rest.length := by
  fun_induction collect s with
  | case1 s s' hNext =>
    obtain ⟨hState, hItem⟩ := next_parts hNext
    by_cases hRest : s.reader.rest = []
    · obtain ⟨-, hLines, hBytes⟩ := advance_end hOpen hRest
      rw [hState] at hLines hBytes
      rw [hRest, splitLines, hLines, hBytes]
      exact ⟨rfl, rfl, rfl⟩
    · rw [(advance_line hOpen hRest).1] at hItem
      cases hItem
  | case2 s s' line hNext hShrinks ih =>
    obtain ⟨hState, hItem⟩ := next_parts hNext
    have hRest : s.reader.rest ≠ [] := by
      intro hNone
      rw [(advance_end hOpen hNone).1] at hItem
      cases hItem
    obtain ⟨hLine, hStep⟩ := advance_line hOpen hRest
    rw [hLine, Option.map_some, Option.some.injEq] at hItem
    rw [hState] at hStep
    obtain ⟨hItems, hLines, hBytes⟩ := ih hStep.finished
    have hLength := congrArg List.length
      (@firstLine_append_drop _ _ newline s.reader.rest)
    rw [List.length_append] at hLength
    rw [hItems, hLines, hBytes, hStep.linesRead, hStep.totalBytes, hStep.rest,
      splitLines_eq_cons hRest, streamedLines, List.length_cons, ← hItem, hStep.lineBuf]
    exact ⟨rfl, by omega, by omega⟩

/-- Counting without the contents ends in the same state. -/
theorem drainCounting_eq (s : TextStream) : s.drainCounting = s.collect.2 := by
  fun_induction drainCounting s with
  | case1 s s' hAdvance =>
    rw [collect]
    split
    · rename_i hNext
      obtain ⟨hState, -⟩ := next_parts hNext
      rw [← hState, hAdvance]
    · rename_i hNext
      obtain ⟨-, hItem⟩ := next_parts hNext
      rw [hAdvance] at hItem
      cases hItem
  | case2 s s' item hAdvance hShrinks ih =>
    rw [collect]
    split
    · rename_i hNext
      obtain ⟨-, hItem⟩ := next_parts hNext
      rw [hAdvance] at hItem
      cases hItem
    · rename_i hNext
      obtain ⟨hState, -⟩ := next_parts hNext
      rw [hAdvance] at hState
      cases hState
      exact ih

end TextStream

/-! ## The stream of a file -/

/-- One item for each line of the file, with its number, offset and first bytes. -/
structure ExactStream (content : Bytes) (items : List StreamedLine) (final : TextStream) :
    Prop where
  items : ∀ (i : Nat), items[i]? = (splitLines newline content)[i]?.map fun line =>
    { lineNumber := i + 1
      content := line.take maxLineDisplayBytes
      -- The newline counts.
      complete := decide (line.length ≤ maxLineDisplayBytes)
      startOffset := ((splitLines newline content).take i).flatten.length }
  totalLines : final.linesRead = (splitLines newline content).length
  totalBytes : final.totalBytes = content.length

theorem exactStream_collect (content : Bytes) (window : Nat → Nat) :
    ExactStream content (TextStream.collect { reader := { rest := content, window } }).1
      (TextStream.collect { reader := { rest := content, window } }).2 := by
  obtain ⟨hItems, hLines, hBytes⟩ :=
    TextStream.collect_eq (s := { reader := { rest := content, window } }) rfl
  refine ⟨?_, ?_, ?_⟩
  · intro i
    rw [hItems, TextStream.streamedLines_getElem?]
    simp only [Nat.zero_add, Nat.add_comm 1 i]
  · rw [hLines, Nat.zero_add]
  · rw [hBytes, Nat.zero_add]

/-- However the reader cuts the content into windows, the items are the lines of the content and
the totals are exact, also when nothing but the totals is asked for. -/
theorem textStream_exact (content : Bytes) (window : Nat → Nat) :
    ExactStream content (TextStream.collect { reader := { rest := content, window } }).1
        (TextStream.collect { reader := { rest := content, window } }).2 ∧
      TextStream.drainCounting { reader := { rest := content, window } } =
        (TextStream.collect { reader := { rest := content, window } }).2 :=
  ⟨exactStream_collect content window, TextStream.drainCounting_eq _⟩

/-- A line of exactly the cap, with its newline. -/
def fullLine : Bytes := List.replicate maxLineDisplayBytes 120 ++ [newline]

theorem fullLine_lines : splitLines newline fullLine = [fullLine] := by
  have hFree : newline ∉ List.replicate maxLineDisplayBytes (120 : UInt8) := by
    intro hMem
    exact absurd (List.eq_of_mem_replicate hMem) (by decide)
  have hFirst : firstLine newline fullLine = fullLine := firstLine_append_sep hFree []
  rw [splitLines_eq_cons (by simp [fullLine]), hFirst, List.drop_length, splitLines]

/-- Nothing but the newline of the line is cut off, and it is marked as cut. -/
theorem fullLine_marked :
    ¬ ∀ (content : Bytes) (window : Nat → Nat) (i : Nat) (item : StreamedLine) (line : Bytes),
      (TextStream.collect { reader := { rest := content, window } }).1[i]? = some item →
      (splitLines newline content)[i]? = some line →
      (item.complete = false ↔ ∃ b ∈ line.drop maxLineDisplayBytes, b ≠ newline) := by
  intro h
  have hLength : fullLine.length = maxLineDisplayBytes + 1 := by
    rw [fullLine, List.length_append, List.length_replicate, List.length_singleton]
  obtain ⟨item, hItem, hCut⟩ : ∃ item,
      (TextStream.collect { reader := { rest := fullLine, window := fun _ => 0 } }).1[0]? =
        some item ∧ item.complete = false := by
    rw [(exactStream_collect fullLine fun _ => 0).items 0, fullLine_lines, List.getElem?_cons_zero,
      Option.map_some]
    refine ⟨_, rfl, ?_⟩
    rw [decide_eq_false_iff_not, hLength, Nat.not_le]
    exact Nat.lt_succ_self _
  obtain ⟨b, hMem, hNe⟩ := (h fullLine (fun _ => 0) 0 item fullLine hItem
    (by rw [fullLine_lines, List.getElem?_cons_zero])).mp hCut
  have hDrop : fullLine.drop maxLineDisplayBytes = [newline] := by
    have hLeft : (List.replicate maxLineDisplayBytes (120 : UInt8) ++ [newline]).drop
        (List.replicate maxLineDisplayBytes (120 : UInt8)).length = [newline] := List.drop_left
    rwa [List.length_replicate] at hLeft
  rw [hDrop, List.mem_singleton] at hMem
  exact hNe hMem

end Choreographr.Tools
