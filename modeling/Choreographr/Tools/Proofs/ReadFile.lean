import Choreographr.Tools.ReadFile
import Choreographr.Tools.Proofs.SanitizeText

/-!
# Pages of a file

A call shows, from its start line on, the lines of its window as long as they fit in the budget,
and its marker names the line behind the last shown one. The next call makes progress exactly if
that line fits in the budget of its own; so the pages reach the end of the file exactly if every
line does.
-/

namespace Choreographr.Tools

open Lib Session

variable {u : UnicodeTables} {text : List Char} {file : TextFile} {path : String} {max start : Nat}

/-! ## Lines of a text -/

theorem firstLine_encode (text : List Char) :
    firstLine newline (encode text) = encode (firstLine '\n' text) := by
  induction text with
  | nil => rfl
  | cons c rest ih =>
    rw [firstLine, encode_cons]
    split
    · rename_i hNewline
      subst hNewline
      rfl
    · rename_i hOther
      have hFree : newline ∉ String.utf8EncodeChar c := by
        intro hMem
        have hSame := mem_encodeChar_ascii (by decide) hMem
        exact hOther (Char.ext (UInt32.toNat_inj.mp hSame))
      rw [firstLine_append_of_notMem hFree, ih, encode_cons]

/-- The lines of the bytes are those of the text. -/
theorem splitLines_encode (text : List Char) :
    splitLines newline (encode text) = (splitLines '\n' text).map encode := by
  induction hLength : text.length using Nat.strongRecOn generalizing text with
  | ind n ih =>
    by_cases hNil : text = []
    · subst hNil
      rfl
    have hBytes : encode text ≠ [] := by
      intro hNone
      have hZero := length_encode text
      rw [hNone, List.length_nil] at hZero
      exact hNil (byteLen_eq_zero.mp hZero.symm)
    have hSplit : firstLine '\n' text ++ text.drop (firstLine '\n' text).length = text :=
      firstLine_append_drop text
    have hDrop : (encode text).drop (firstLine newline (encode text)).length =
        encode (text.drop (firstLine '\n' text).length) := by
      rw [firstLine_encode]
      conv_lhs => rw [← hSplit]
      rw [encode_append, hSplit, List.drop_left]
    have hPos : 0 < (firstLine '\n' text).length := by
      rw [List.length_pos_iff, Ne, firstLine_eq_nil]
      exact hNil
    have hText := List.length_pos_of_ne_nil hNil
    rw [splitLines_eq_cons hBytes, splitLines_eq_cons hNil, List.map_cons, hDrop, firstLine_encode]
    congr 1
    refine ih _ ?_ _ rfl
    rw [List.length_drop]
    omega

/-- The displayed line: what is in front of the cap, and whether that is all. -/
def renderedLine (u : UnicodeTables) (lineNumber : Nat) (line : List Char) : List Char :=
  displayLine u lineNumber (byteLen line ≤ maxLineDisplayBytes)
    (bytePrefix maxLineDisplayBytes line)

/-- The displayed lines of a text, from a number on. -/
def renderedLines (u : UnicodeTables) (lineNumber : Nat) : List (List Char) → List (List Char)
  | [] => []
  | line :: rest => renderedLine u lineNumber line :: renderedLines u (lineNumber + 1) rest

theorem nul_not_mem_encode (hNul : '\x00' ∉ text) : (0 : UInt8) ∉ encode text :=
  fun hMem => hNul (mem_encode_ascii (c := '\x00') (by decide) hMem)

theorem findIdx?_nul {bytes : Bytes} (h : (0 : UInt8) ∉ bytes) :
    bytes.findIdx? (· == 0) = none := by
  rw [List.findIdx?_eq_none_iff]
  intro b hMem
  exact beq_false_of_ne fun hZero => h (hZero ▸ hMem)

theorem renderStreamedLine_encode (line : List Char) (hNul : '\x00' ∉ line) (number offset : Nat)
    (path : String) :
    renderStreamedLine u ⟨number, (encode line).take maxLineDisplayBytes,
        decide ((encode line).length ≤ maxLineDisplayBytes), offset⟩ path =
      .ok (renderedLine u number line) := by
  have hNone : ((encode line).take maxLineDisplayBytes).findIdx? (· == 0) = none :=
    findIdx?_nul fun hMem => nul_not_mem_encode hNul (List.mem_of_mem_take hMem)
  obtain ⟨hText, hLeft⟩ := decodeText_take_encode maxLineDisplayBytes line
  have hDisplay : displayLine u number (decide ((encode line).length ≤ maxLineDisplayBytes))
      (decodeText ((encode line).take maxLineDisplayBytes)).1 = renderedLine u number line := by
    rw [hText, renderedLine, length_encode]
  simp only [renderStreamedLine, hNone, hDisplay]
  by_cases hWhole : (decodeText ((encode line).take maxLineDisplayBytes)).2 = []
  · rw [if_pos hWhole]
  · rw [if_neg hWhole]
    have hCut := (hLeft.resolve_left hWhole).isCutChar hWhole
    -- A line that is not cut has nothing left.
    have hLong : decide ((encode line).length ≤ maxLineDisplayBytes) = false := by
      rw [decide_eq_false_iff_not]
      intro hLe
      rw [List.take_of_length_le hLe, decodeText_encode] at hWhole
      exact hWhole rfl
    rw [hCut, hLong]
    rfl

theorem openTextReader_encode (hText : file.content = encode text) (hNul : '\x00' ∉ text)
    (window : Nat → Nat) :
    ∃ reader, openTextReader file window = .ok reader ∧ reader.rest = file.content := by
  have hHead : ∃ n, BufReader.available { rest := file.content, window } = (encode text).take n :=
    ⟨window 0 + 1, by rw [BufReader.available, hText]⟩
  obtain ⟨n, hHead⟩ := hHead
  have hNone : ((encode text).take n).findIdx? (· == 0) = none :=
    findIdx?_nul fun hMem => nul_not_mem_encode hNul (List.mem_of_mem_take hMem)
  refine ⟨BufReader.filled { rest := file.content, window }, ?_, rfl⟩
  simp only [openTextReader, hHead, hNone]
  rw [if_neg]
  rintro ⟨hSome, hCut⟩
  have hBegins := (decodeText_take_encode n text).2.resolve_left hSome
  rw [hBegins.isCutChar hSome] at hCut
  cases hCut

/-! ## One page -/

/-- The lines that fit in a number of bytes, up to the first that does not. -/
def fitting : Nat → List (List Char) → List (List Char)
  | _, [] => []
  | room, line :: rest =>
      if byteLen line + 1 ≤ room then line :: fitting (room - (byteLen line + 1)) rest else []

/-- The bytes of lines with their newlines. -/
def bodyLen (lines : List (List Char)) : Nat := (lines.map fun line => byteLen line + 1).sum

theorem fitting_isPrefix (room : Nat) (lines : List (List Char)) : fitting room lines <+: lines := by
  induction lines generalizing room with
  | nil => exact List.prefix_refl []
  | cons line rest ih =>
    rw [fitting]
    split
    · exact (List.prefix_cons_inj line).mpr (ih _)
    · exact List.nil_prefix

theorem bodyLen_fitting_le (room : Nat) (lines : List (List Char)) :
    bodyLen (fitting room lines) ≤ room := by
  induction lines generalizing room with
  | nil => exact Nat.zero_le room
  | cons line rest ih =>
    rw [fitting]
    split
    · have hRest := ih (room - (byteLen line + 1))
      unfold bodyLen at hRest ⊢
      rw [List.map_cons, List.sum_cons]
      omega
    · exact Nat.zero_le room

theorem fits_of_mem_fitting {room : Nat} {lines : List (List Char)} {line : List Char}
    (h : line ∈ fitting room lines) : byteLen line + 1 ≤ room := by
  induction lines generalizing room with
  | nil => cases h
  | cons first rest ih =>
    rw [fitting] at h
    split at h
    · rcases List.mem_cons.mp h with rfl | hRest
      · assumption
      · exact (ih hRest).trans (Nat.sub_le _ _)
    · cases h

theorem readLines_done {s : ReadState} (h : max ≤ s.linesShown ∨ s.budget.truncated = true)
    (items : List StreamedLine) : readLines u path start max items s = .ok s := by
  induction items with
  | nil => rfl
  | cons line rest ih =>
    rw [readLines, if_pos]
    · exact ih
    · rcases h with hFull | hSpent
      · exact .inl fun hIn => Nat.not_lt.mpr hFull hIn.2
      · exact .inr hSpent

/-- What the loop adds to its state over a window of lines. -/
structure Shown (s s' : ReadState) (window : List (List Char)) : Prop where
  out : s'.out = s.out ++ fitting (s.budget.maxBytes - s.budget.shownBytes) window
  linesShown : s'.linesShown =
    s.linesShown + (fitting (s.budget.maxBytes - s.budget.shownBytes) window).length
  truncated : s'.budget.truncated = true ↔
    (fitting (s.budget.maxBytes - s.budget.shownBytes) window).length < window.length

theorem readLines_inside {number offset : Nat} {s : ReadState} (hStart : start ≤ number)
    (hShown : s.linesShown ≤ max) (hRoom : s.budget.shownBytes ≤ s.budget.maxBytes)
    (hOpen : s.budget.truncated = false) (lines : List (List Char))
    (hNul : ∀ line ∈ lines, '\x00' ∉ line) :
    ∃ s', readLines u path start max
        (TextStream.streamedLines number offset (lines.map encode)) s = .ok s' ∧
      Shown s s' ((renderedLines u number lines).take (max - s.linesShown)) := by
  induction lines generalizing number offset s with
  | nil =>
    refine ⟨s, rfl, ?_, ?_, ?_⟩
    · simp [renderedLines, fitting]
    · simp [renderedLines, fitting]
    · simp [renderedLines, fitting, hOpen]
  | cons line rest ih =>
    by_cases hFull : max ≤ s.linesShown
    · refine ⟨s, readLines_done (.inl hFull) _, ?_⟩
      rw [Nat.sub_eq_zero_of_le hFull, List.take_zero]
      exact ⟨by simp [fitting], by simp [fitting], by simp [fitting, hOpen]⟩
    have hLine : '\x00' ∉ line := hNul line List.mem_cons_self
    obtain ⟨left, hLeft⟩ : ∃ left, max - s.linesShown = left + 1 :=
      ⟨max - s.linesShown - 1, by omega⟩
    rw [List.map_cons, TextStream.streamedLines, readLines, if_neg (by simp [hStart, hOpen]; omega),
      renderStreamedLine_encode line hLine, renderedLines, hLeft, List.take_succ_cons]
    by_cases hFits : byteLen (renderedLine u number line) + 1 ≤
        s.budget.maxBytes - s.budget.shownBytes
    · have hPush : s.budget.pushLine s.out (renderedLine u number line) =
          ({ s.budget with
              shownBytes := s.budget.shownBytes + (byteLen (renderedLine u number line) + 1) },
            s.out ++ [renderedLine u number line], true) := by
        simp only [OutputBudget.pushLine, hOpen, Bool.false_or, decide_eq_true_eq]
        rw [if_neg (by omega)]
      simp only [hPush, if_true]
      obtain ⟨s', hRun, hOut, hCount, hSpent⟩ := @ih (number + 1) (offset + (encode line).length)
        { budget := { s.budget with shownBytes := s.budget.shownBytes +
            (byteLen (renderedLine u number line) + 1) }
          out := s.out ++ [renderedLine u number line]
          linesShown := s.linesShown + 1 }
        (by omega) (by simp only; omega) (by simp only; omega) hOpen
        fun l hMem => hNul l (List.mem_cons_of_mem line hMem)
      simp only at hOut hCount hSpent
      have hRest : max - (s.linesShown + 1) = left := by omega
      rw [hRest, ← Nat.sub_sub] at hOut hCount hSpent
      refine ⟨s', hRun, ?_, ?_, ?_⟩
      · rw [hOut, fitting, if_pos hFits, List.append_assoc]
        rfl
      · rw [hCount, fitting, if_pos hFits, List.length_cons]
        omega
      · rw [hSpent, fitting, if_pos hFits, List.length_cons, List.length_cons]
        omega
    · have hPush : s.budget.pushLine s.out (renderedLine u number line) =
          ({ s.budget with truncated := true }, s.out, false) := by
        simp only [OutputBudget.pushLine, hOpen, Bool.false_or, decide_eq_true_eq]
        rw [if_pos (by omega)]
      simp only [hPush, Bool.false_eq_true, if_false]
      refine ⟨_, readLines_done (.inr rfl) _, ?_, ?_, ?_⟩
      · rw [fitting, if_neg hFits, List.append_nil]
      · rw [fitting, if_neg hFits]
        rfl
      · rw [fitting, if_neg hFits]
        simp

theorem readLines_skip {s : ReadState} (lines : List Bytes) (number offset : Nat)
    (hLe : number ≤ start) :
    ∃ offset', readLines u path start max (TextStream.streamedLines number offset lines) s =
      readLines u path start max
        (TextStream.streamedLines start offset' (lines.drop (start - number))) s := by
  induction lines generalizing number offset with
  | nil => exact ⟨offset, by rw [List.drop_nil]; rfl⟩
  | cons line rest ih =>
    rcases Nat.lt_or_ge number start with hLt | hGe
    · obtain ⟨offset', hRest⟩ := ih (number + 1) (offset + line.length) hLt
      refine ⟨offset', ?_⟩
      obtain ⟨k, hK⟩ : ∃ k, start - number = k + 1 := ⟨start - number - 1, by omega⟩
      have hK' : start - (number + 1) = k := by omega
      rw [TextStream.streamedLines, readLines, if_pos (.inl fun hIn => by
        have hStart : start ≤ number := hIn.1
        omega), hRest, hK, List.drop_succ_cons, hK']
    · have hEq : number = start := Nat.le_antisymm hLe hGe
      exact ⟨offset, by rw [hEq, Nat.sub_self, List.drop_zero]⟩

theorem renderedLines_drop (number k : Nat) (lines : List (List Char)) :
    (renderedLines u number lines).drop k = renderedLines u (number + k) (lines.drop k) := by
  induction k generalizing number lines with
  | zero => rfl
  | succ k ih =>
    cases lines with
    | nil => rfl
    | cons line rest =>
      rw [renderedLines, List.drop_succ_cons, ih, List.drop_succ_cons, Nat.add_assoc,
        Nat.add_comm 1 k]

theorem length_renderedLines (number : Nat) (lines : List (List Char)) :
    (renderedLines u number lines).length = lines.length := by
  induction lines generalizing number with
  | nil => rfl
  | cons line rest ih => rw [renderedLines, List.length_cons, ih, List.length_cons]

/-- The displayed lines of a file. -/
def fileLines (u : UnicodeTables) (text : List Char) : List (List Char) :=
  renderedLines u 1 (splitLines '\n' text)

/-- A text file without NUL bytes that a call can name. -/
structure IsTextFile (file : TextFile) (path : String) (text : List Char) : Prop where
  content : file.content = encode text
  noNul : '\x00' ∉ text
  named : path.toList.all isWhitespace = false

/-- A page: what fits of the window, and where to go on. -/
structure IsPage (all : List (List Char)) (start max : Nat) (v : ReadView) : Prop where
  lines : v.lines = fitting maxToolOutputBytes ((all.drop (start - 1)).take max)
  marker : v.marker = none ↔ all.length ≤ start - 1 + v.lines.length
  resume : ∀ m ∈ v.marker, m.resume = start + v.lines.length

theorem mem_of_mem_splitLines {line : List Char} (h : line ∈ splitLines '\n' text) {c : Char}
    (hMem : c ∈ line) : c ∈ text := by
  have hText : (splitLines '\n' text).flatten = text := flatten_splitLines text
  rw [← hText]
  exact List.mem_flatten.mpr ⟨line, h, hMem⟩

theorem isPage_readView {lines : List (List Char)} {totalBytes : Nat} {s : ReadState}
    (hStart : 1 ≤ start) (hIn : start ≤ lines.length) (hMax : 1 ≤ max)
    (hShown : Shown {} s ((lines.drop (start - 1)).take max)) :
    IsPage lines start max (readView file start max lines.length totalBytes s) := by
  obtain ⟨hOut, hCount, hSpent⟩ := hShown
  change s.out = [] ++ fitting maxToolOutputBytes _ at hOut
  change s.linesShown = 0 + (fitting maxToolOutputBytes _).length at hCount
  change _ ↔ (fitting maxToolOutputBytes _).length < _ at hSpent
  rw [List.nil_append] at hOut
  rw [Nat.zero_add, ← hOut] at hCount
  rw [← hOut, List.length_take, List.length_drop] at hSpent
  have hLe : s.out.length ≤ min max (lines.length - (start - 1)) := by
    rw [hOut, ← List.length_drop, ← List.length_take]
    exact (fitting_isPrefix _ _).length_le
  refine ⟨hOut, ?_, ?_⟩
  · simp only [readView]
    by_cases hTruncated : s.budget.truncated = true
    · have hLt := hSpent.mp hTruncated
      simp only [hTruncated, if_true, reduceCtorEq, false_iff]
      omega
    · have hAll : ¬ s.out.length < min max (lines.length - (start - 1)) :=
        fun hLt => hTruncated (hSpent.mpr hLt)
      rw [if_neg hTruncated]
      split
      · simp only [reduceCtorEq, false_iff]
        omega
      · simp only [true_iff]
        omega
  · intro m hMarker
    simp only [readView] at hMarker
    by_cases hTruncated : s.budget.truncated = true
    · rw [if_pos hTruncated] at hMarker
      cases hMarker
      exact congrArg (start + ·) hCount
    · have hAll : ¬ s.out.length < min max (lines.length - (start - 1)) :=
        fun hLt => hTruncated (hSpent.mpr hLt)
      rw [if_neg hTruncated] at hMarker
      split at hMarker
      · cases hMarker
        simp only [ReadMarker.resume, readView]
        omega
      · cases hMarker

theorem executeReadFileTool_page (hFile : IsTextFile file path text) (hStart : 1 ≤ start)
    (hIn : start ≤ (fileLines u text).length ∨ (fileLines u text).length = 0) (hMax : 1 ≤ max)
    (hCap : max ≤ maxReadFileLines) (window : Nat → Nat) :
    ∃ v, executeReadFileTool u ⟨path, start, max⟩ file window = .ok v ∧
      IsPage (fileLines u text) start max v := by
  obtain ⟨reader, hOpen, hRest⟩ := openTextReader_encode hFile.content hFile.noNul window
  obtain ⟨hItems, hTotal, -⟩ := TextStream.collect_eq (s := { reader }) rfl
  have hLines : (splitLines newline reader.rest) = (splitLines '\n' text).map encode := by
    rw [hRest, hFile.content, splitLines_encode]
  simp only [hLines, Nat.zero_add, List.length_map] at hItems hTotal
  have hLength : (fileLines u text).length = (splitLines '\n' text).length :=
    length_renderedLines 1 _
  obtain ⟨offset, hSkip⟩ := @readLines_skip u file.path max _ ({} : ReadState)
    ((splitLines '\n' text).map encode) 1 0 hStart
  rw [← List.map_drop] at hSkip
  have hFree : ∀ line ∈ (splitLines '\n' text).drop (start - 1), '\x00' ∉ line :=
    fun line hMem hNul =>
      hFile.noNul (mem_of_mem_splitLines (List.mem_of_mem_drop hMem) hNul)
  obtain ⟨s, hRun, hShown⟩ := @readLines_inside u file.path max _ _ offset ({} : ReadState)
    (Nat.le_refl start) (Nat.zero_le max)
    (Nat.zero_le maxToolOutputBytes) rfl ((splitLines '\n' text).drop (start - 1)) hFree
  have hWindow : renderedLines u start ((splitLines '\n' text).drop (start - 1)) =
      (fileLines u text).drop (start - 1) := by
    rw [fileLines, renderedLines_drop]
    congr 1
    omega
  change Shown {} s (List.take max _) at hShown
  rw [hWindow] at hShown
  have hMaxPos : max ≠ 0 := by omega
  have hStartPos : start ≠ 0 := by omega
  simp only [executeReadFileTool, hFile.named, Bool.false_eq_true, if_false, if_neg hStartPos,
    if_neg hMaxPos, if_neg (Nat.not_lt.mpr hCap), hOpen, hItems, hTotal, hSkip, hRun,
    Except.bind, bind]
  by_cases hEmpty : (splitLines '\n' text).length = 0
  · refine ⟨_, if_pos hEmpty, ?_, ?_, ?_⟩
    · have hNone : fileLines u text = [] := List.length_eq_zero_iff.mp (hLength.trans hEmpty)
      rw [hNone, List.drop_nil, List.take_nil]
      rfl
    · rw [hLength, hEmpty]
      exact iff_of_true rfl (Nat.zero_le _)
    · exact fun m hMarker => absurd hMarker (by simp)
  · have hInside : start ≤ (fileLines u text).length := by
      rcases hIn with hLe | hZero
      · exact hLe
      · exact absurd (hLength.symm.trans hZero) hEmpty
    rw [if_neg hEmpty, if_neg (by rw [← hLength]; omega), ← hLength]
    exact ⟨_, rfl, isPage_readView hStart hInside hMax hShown⟩

/-! ## All pages -/

/-- The calls from a start line on, each at the line that the marker before names, which is a
later one. A call is made over a reader with windows of its own. -/
inductive Pages (u : UnicodeTables) (file : TextFile) (path : String) (max : Nat)
    (windows : Nat → Nat → Nat) : Nat → Nat → List ReadView → Prop
  | last {call start : Nat} {v : ReadView} :
      executeReadFileTool u ⟨path, start, max⟩ file (windows call) = .ok v → v.marker = none →
      Pages u file path max windows call start [v]
  | more {call start : Nat} {v : ReadView} {m : ReadMarker} {rest : List ReadView} :
      executeReadFileTool u ⟨path, start, max⟩ file (windows call) = .ok v → v.marker = some m →
      start < m.resume → Pages u file path max windows (call + 1) m.resume rest →
      Pages u file path max windows call start (v :: rest)

/-- The pages end, list every line once and in order, and stay within the budget. -/
def Covered (u : UnicodeTables) (file : TextFile) (path : String) (text : List Char) (max : Nat)
    (windows : Nat → Nat → Nat) : Prop :=
  ∃ views, Pages u file path max windows 0 1 views ∧
    (views.flatMap fun v => v.lines) = fileLines u text ∧
    ∀ v ∈ views, byteLen v.body ≤ maxToolOutputBytes

/-- The line fits in the budget of a call of its own. -/
def FitsAlone (line : List Char) : Prop := byteLen line + 1 ≤ maxToolOutputBytes

theorem byteLen_body (v : ReadView) : byteLen v.body = bodyLen v.lines := by
  rw [ReadView.body, byteLen_flatMap, bodyLen]
  congr 1
  refine List.map_congr_left fun line _ => ?_
  have hOne : ('\n').utf8Size = 1 := by decide
  rw [byteLen_append, byteLen_cons, byteLen_nil, hOne]

section Paging

variable {all : List (List Char)} {v : ReadView}

theorem IsPage.lines_append (h : IsPage all start max v) :
    v.lines ++ all.drop (start - 1 + v.lines.length) = all.drop (start - 1) := by
  have hPrefix : v.lines <+: all.drop (start - 1) := by
    rw [h.lines]
    exact (fitting_isPrefix _ _).trans (List.take_prefix _ _)
  obtain ⟨rest, hRest⟩ := hPrefix
  rw [← List.drop_drop, ← hRest, List.drop_left]

theorem IsPage.body_le (h : IsPage all start max v) : byteLen v.body ≤ maxToolOutputBytes := by
  rw [byteLen_body, h.lines]
  exact bodyLen_fitting_le _ _

/-- A page whose first line fits shows it. -/
theorem IsPage.progress (h : IsPage all start max v) (hFits : ∀ line ∈ all, FitsAlone line)
    (hMax : 1 ≤ max) (hStart : 1 ≤ start) (hIn : start ≤ all.length) : 0 < v.lines.length := by
  obtain ⟨line, rest, hDrop⟩ : ∃ line rest, all.drop (start - 1) = line :: rest := by
    refine List.exists_cons_of_ne_nil ?_
    rw [Ne, List.drop_eq_nil_iff]
    omega
  have hLine : FitsAlone line := by
    refine hFits line (List.mem_of_mem_drop (i := start - 1) ?_)
    rw [hDrop]
    exact List.mem_cons_self
  obtain ⟨left, rfl⟩ : ∃ left, max = left + 1 := ⟨max - 1, by omega⟩
  rw [h.lines, hDrop, List.take_succ_cons, fitting,
    if_pos (show byteLen line + 1 ≤ maxToolOutputBytes from hLine)]
  exact Nat.succ_pos _

theorem pages_of_fits (hFile : IsTextFile file path text) (hMax : 1 ≤ max)
    (hCap : max ≤ maxReadFileLines) (hFits : ∀ line ∈ fileLines u text, FitsAlone line)
    (call start : Nat) (hStart : 1 ≤ start)
    (hIn : start ≤ (fileLines u text).length ∨ (fileLines u text).length = 0) :
    ∃ views, Pages u file path max windows call start views ∧
      (views.flatMap fun v => v.lines) = (fileLines u text).drop (start - 1) ∧
      ∀ v ∈ views, byteLen v.body ≤ maxToolOutputBytes := by
  induction hLeft : (fileLines u text).length - (start - 1) using Nat.strongRecOn
    generalizing call start with
  | ind left ih =>
    obtain ⟨v, hRun, hPage⟩ := executeReadFileTool_page hFile hStart hIn hMax hCap (windows call)
    have hSplit := hPage.lines_append
    cases hMarker : v.marker with
    | none =>
      have hEnd := hPage.marker.mp hMarker
      rw [List.drop_eq_nil_of_le hEnd, List.append_nil] at hSplit
      refine ⟨[v], .last hRun hMarker, by simpa using hSplit, ?_⟩
      rintro w hMem
      obtain rfl := List.mem_singleton.mp hMem
      exact hPage.body_le
    | some m =>
      have hMore : ¬ (fileLines u text).length ≤ start - 1 + v.lines.length := fun hEnd => by
        rw [hPage.marker.mpr hEnd] at hMarker
        cases hMarker
      have hResume := hPage.resume m hMarker
      have hProgress := hPage.progress hFits hMax hStart (by omega)
      obtain ⟨views, hPages, hLines, hBodies⟩ :=
        ih ((fileLines u text).length - (m.resume - 1)) (by omega) (call + 1) m.resume (by omega)
          (.inl (by omega)) rfl
      refine ⟨v :: views, .more hRun hMarker (by omega) hPages, ?_, ?_⟩
      · have hNext : m.resume - 1 = start - 1 + v.lines.length := by omega
        rw [List.flatMap_cons, hLines, hNext, hSplit]
      · intro w hMem
        rcases List.mem_cons.mp hMem with rfl | hRest
        · exact hPage.body_le
        · exact hBodies w hRest

/-- Every line that the pages pass has been shown, hence fits. -/
theorem fits_of_pages (hFile : IsTextFile file path text) (hMax : 1 ≤ max)
    (hCap : max ≤ maxReadFileLines) {call : Nat} {views : List ReadView}
    (h : Pages u file path max windows call start views) (hStart : 1 ≤ start)
    (hIn : start ≤ (fileLines u text).length ∨ (fileLines u text).length = 0) :
    ∀ line ∈ (fileLines u text).drop (start - 1), FitsAlone line := by
  have hShown : ∀ {v : ReadView} {start : Nat}, IsPage (fileLines u text) start max v →
      ∀ line ∈ v.lines, FitsAlone line := by
    intro v start hPage line hMem
    rw [hPage.lines] at hMem
    exact fits_of_mem_fitting hMem
  induction h with
  | @last call start v hRun hMarker =>
    obtain ⟨v', hRun', hPage⟩ := executeReadFileTool_page hFile hStart hIn hMax hCap (windows call)
    rw [hRun] at hRun'
    cases hRun'
    have hSplit := hPage.lines_append
    rw [List.drop_eq_nil_of_le (hPage.marker.mp hMarker), List.append_nil] at hSplit
    rw [← hSplit]
    exact hShown hPage
  | @more call start v m rest hRun hMarker hLater hPages ih =>
    obtain ⟨v', hRun', hPage⟩ := executeReadFileTool_page hFile hStart hIn hMax hCap (windows call)
    rw [hRun] at hRun'
    cases hRun'
    have hMore : ¬ (fileLines u text).length ≤ start - 1 + v.lines.length := fun hEnd => by
      rw [hPage.marker.mpr hEnd] at hMarker
      cases hMarker
    have hResume := hPage.resume m hMarker
    have hRest := ih (by omega) (.inl (by omega))
    have hNext : m.resume - 1 = start - 1 + v.lines.length := by omega
    intro line hMem
    rw [← hPage.lines_append] at hMem
    rcases List.mem_append.mp hMem with hHere | hBehind
    · exact hShown hPage line hHere
    · exact hRest line (hNext ▸ hBehind)

theorem fileLines_start (text : List Char) :
    1 ≤ (fileLines u text).length ∨ (fileLines u text).length = 0 := by omega

/-- The pages of a file cover it if and only if each of its lines, as displayed and with its
newline, fits in the budget. -/
theorem readFile_pages_iff (hFile : IsTextFile file path text) (hMax : 1 ≤ max)
    (hCap : max ≤ maxReadFileLines) :
    Covered u file path text max windows ↔ ∀ line ∈ fileLines u text, FitsAlone line := by
  constructor
  · rintro ⟨views, hPages, -, -⟩
    exact fits_of_pages hFile hMax hCap hPages (Nat.le_refl 1) (fileLines_start text)
  · intro hFits
    exact pages_of_fits hFile hMax hCap hFits 0 1 (Nat.le_refl 1) (fileLines_start text)

end Paging

def sampleFile : TextFile where
  path := "/tmp/a.txt"
  label := "a.txt".toList
  content := encode "a\nb".toList

theorem sampleFile_text : IsTextFile sampleFile "a.txt" "a\nb".toList :=
  ⟨rfl, by decide, by decide⟩

theorem sampleFile_pages :
    Covered sampleTables sampleFile "a.txt" "a\nb".toList 1 (fun _ _ => 0) ↔
      ∀ line ∈ fileLines sampleTables "a\nb".toList, FitsAlone line :=
  readFile_pages_iff sampleFile_text (by decide) (by decide)

/-- One line of control characters, each of which is escaped. -/
def controlText : List Char := List.replicate 65536 '\x01'

def controlFile : TextFile where
  path := "/tmp/a.bin"
  label := "a.bin".toList
  content := encode controlText

theorem byteLen_sanitizeContent_control :
    byteLen (sanitizeContent u controlText) = 65536 * 5 := by
  have hPlain : isPlainAscii controlText true = false := by
    rw [controlText, isPlainAscii, List.all_replicate]
    decide
  have hKeeps : sanitizeKeeps u '\x01' true = false := by
    rw [sanitizeKeeps, if_pos (by decide)]
    decide
  have hFive : (escapeDefault '\x01').length = 5 := by decide
  rw [sanitizeContent, byteLen_sanitizeText, sanitizeTextLen, hPlain, controlText,
    List.map_replicate, hKeeps, hFive, if_neg Bool.false_ne_true, if_neg Bool.false_ne_true,
    List.sum_replicate_nat]

theorem controlText_too_long : ¬ FitsAlone (renderedLine u 1 controlText) := by
  have hOne : ('\x01').utf8Size = 1 := by decide
  have hLength : byteLen controlText = 65536 := by
    rw [controlText, byteLen_replicate, hOne]
  have hCap : maxLineDisplayBytes = 65536 := rfl
  have hLast : ∀ c, c ≠ '\x01' → stripLast c controlText = controlText := by
    intro c hNe
    rw [stripLast, if_neg]
    intro hEnd
    exact hNe (List.eq_of_mem_replicate (List.mem_of_getLast? hEnd))
  rw [FitsAlone, renderedLine, bytePrefix_of_le (by omega), displayLine,
    hLast '\n' (by decide), hLast '\r' (by decide), byteLen_append, byteLen_append,
    byteLen_sanitizeContent_control]
  have hMax : maxToolOutputBytes = 131072 := rfl
  omega

theorem controlText_lines : fileLines u controlText = [renderedLine u 1 controlText] := by
  have hFree : '\n' ∉ controlText :=
    fun hMem => absurd (List.eq_of_mem_replicate hMem) (by decide)
  have hSome : controlText ≠ [] := by
    rw [controlText, Ne, List.replicate_eq_nil_iff]
    omega
  rw [fileLines, splitLines_eq_cons hSome, firstLine_of_notMem hFree, List.drop_length, splitLines]
  rfl

/-- The first call shows nothing and names its own start line. -/
theorem controlFile_not_covered :
    ¬ ∀ (file : TextFile) (path : String) (text : List Char) (max : Nat)
      (windows : Nat → Nat → Nat), IsTextFile file path text → 1 ≤ max → max ≤ maxReadFileLines →
      Covered sampleTables file path text max windows := by
  intro h
  have hFile : IsTextFile controlFile "a.bin" controlText :=
    ⟨rfl, fun hMem => absurd (List.eq_of_mem_replicate hMem) (by decide), by decide⟩
  obtain ⟨views, hPages, -, -⟩ :=
    h controlFile "a.bin" controlText 1 (fun _ _ => 0) hFile (by decide) (by decide)
  have hFits := fits_of_pages hFile (by decide) (by decide) hPages (Nat.le_refl 1)
    (fileLines_start controlText)
  refine controlText_too_long (u := sampleTables) (hFits _ ?_)
  rw [Nat.sub_self, List.drop_zero, controlText_lines]
  exact List.mem_cons_self

end Choreographr.Tools
