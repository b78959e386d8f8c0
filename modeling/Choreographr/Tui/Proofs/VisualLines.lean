import Mathlib.Data.List.TakeWhile
import Choreographr.Tui.VisualLines

/-!
# Visual lines cover the text

The visual lines of a text cut it into rows with whitespace between them. What a row or an offset
in it means is read off from that decomposition.
-/

namespace Choreographr.Tui

open Lib

variable {m : TextMetrics}

/-! ## Words -/

def Word.text (w : Word) : List Char := w.gap ++ w.word

/-- The words of a line, with what is between and behind them, are the line. -/
theorem splitWords_text (logical : List Char) :
    (splitWords logical).1.flatMap Word.text ++ (splitWords logical).2 = logical := by
  induction hLength : logical.length using Nat.strongRecOn generalizing logical with
  | ind n ih =>
    have hSplit := List.takeWhile_append_dropWhile (p := isAsciiWhitespace) (l := logical)
    rw [splitWords]
    split
    · rename_i hLine
      rw [hLine, List.append_nil] at hSplit
      exact hSplit
    · rename_i c rest hLine
      have hWord : isAsciiWhitespace c = false := by
        have hHead := List.head_dropWhile_not isAsciiWhitespace (l := logical)
          (by rw [hLine]; exact List.cons_ne_nil c rest)
        simpa [hLine] using hHead
      have hShort := (List.dropWhile_suffix (l := rest) fun d => !isAsciiWhitespace d).length_le
      have hLe := (List.dropWhile_suffix (l := logical) isAsciiWhitespace).length_le
      rw [hLine, List.length_cons] at hLe
      have hRest := ih _ (by omega) (rest.dropWhile fun d => !isAsciiWhitespace d) rfl
      have hTake : (c :: rest).takeWhile (fun d => !isAsciiWhitespace d) =
          c :: rest.takeWhile fun d => !isAsciiWhitespace d :=
        List.takeWhile_cons_of_pos (by rw [hWord]; rfl)
      simp only [List.flatMap_cons, Word.text, List.append_assoc, hRest]
      rw [hTake, List.cons_append, List.takeWhile_append_dropWhile, ← hLine, hSplit]

theorem splitWords_gap (logical : List Char) :
    ∀ w ∈ (splitWords logical).1, ∀ c ∈ w.gap, isAsciiWhitespace c = true := by
  fun_induction splitWords logical with
  | case1 logical gap hLine => exact fun w hMem => absurd hMem List.not_mem_nil
  | case2 logical gap c rest hLine word words ih =>
    intro w hMem
    rcases List.mem_cons.mp hMem with rfl | hRest
    · exact fun c hGap => List.mem_takeWhile_imp hGap
    · exact ih w hRest

/-- The words of a logical line that the wrap puts on a row of their own. -/
def wrapPoints (m : TextMetrics) (maxWidth : Nat) : Nat → List Word → List Word
  | _, [] => []
  | lineWidth, w :: rest =>
      if 0 < lineWidth ∧ maxWidth < lineWidth + (m.width w.gap + m.width w.word) then
        w :: wrapPoints m maxWidth (m.width w.word) rest
      else wrapPoints m maxWidth (lineWidth + (m.width w.gap + m.width w.word)) rest

/-- No wrap drops more than one byte of whitespace. -/
def SingleBreaks (m : TextMetrics) (text : List Char) (maxWidth : Nat) : Prop :=
  ∀ logical ∈ logicalLines text, ∀ w ∈ wrapPoints m maxWidth 0 (splitWords logical).1,
    byteLen w.gap ≤ 1

/-! ## Covering -/

/-- The lines are the rows of a text that stands at an offset, with the gaps between them. -/
inductive Covers : Nat → List Char → List VisualLineInfo → List (List Char) → Prop
  | last {offset width : Nat} {row : List Char} :
      Covers offset row [⟨offset, offset + byteLen row, width⟩] []
  | more {offset width : Nat} {row gap rest : List Char} {lines : List VisualLineInfo}
      {gaps : List (List Char)} :
      (∀ c ∈ gap, isAsciiWhitespace c = true) →
      Covers (offset + byteLen row + byteLen gap) rest lines gaps →
      Covers offset (row ++ (gap ++ rest)) (⟨offset, offset + byteLen row, width⟩ :: lines)
        (gap :: gaps)

theorem Covers.append {offset : Nat} {text gap rest : List Char}
    {lines lines' : List VisualLineInfo} {gaps gaps' : List (List Char)}
    (h : Covers offset text lines gaps) (hGap : ∀ c ∈ gap, isAsciiWhitespace c = true)
    (hRest : Covers (offset + byteLen text + byteLen gap) rest lines' gaps') :
    Covers offset (text ++ (gap ++ rest)) (lines ++ lines') (gaps ++ gap :: gaps') := by
  induction h with
  | last => exact .more hGap hRest
  | @more offset width row inner tail lines gaps hInner _ ih =>
    rw [byteLen_append, byteLen_append, ← Nat.add_assoc, ← Nat.add_assoc] at hRest
    rw [List.append_assoc, List.append_assoc]
    exact .more hInner (ih hRest)

/-! ## One logical line -/

/-- The lines so far and the current one cover what has been read. -/
structure Wrapping.Holds (s : Wrapping) (offset : Nat) (text : List Char)
    (gaps : List (List Char)) : Prop where
  covers : ∃ front row, text = front ++ row ∧ s.lineStartByte = offset + byteLen front ∧
    s.lastWordEndByte = s.lineStartByte + byteLen row ∧
    ∀ more lines gaps', Covers s.lineStartByte (row ++ more) lines gaps' →
      Covers offset (text ++ more) (s.lines ++ lines) (gaps ++ gaps')

theorem Wrapping.Holds.placeWord {s : Wrapping} {offset maxWidth : Nat} {text : List Char}
    {gaps : List (List Char)} {w : Word} (h : s.Holds offset text gaps)
    (hGap : ∀ c ∈ w.gap, isAsciiWhitespace c = true) :
    ∃ gaps', (placeWord m maxWidth s w).Holds offset (text ++ w.text) gaps' ∧
      ∀ rest, gaps ++ (wrapPoints m maxWidth s.lineWidth (w :: rest)).map Word.gap =
        gaps' ++ (wrapPoints m maxWidth (Tui.placeWord m maxWidth s w).lineWidth rest).map
          Word.gap := by
  obtain ⟨front, row, hText, hStart, hEnd, hCovers⟩ := h.covers
  unfold Tui.placeWord
  dsimp only
  split
  · rename_i hWrap
    refine ⟨gaps ++ [w.gap], ⟨text ++ w.gap, w.word, ?_, ?_, rfl, fun more lines gaps' hRest => ?_⟩,
      fun rest => ?_⟩
    · rw [Word.text, List.append_assoc]
    · show s.lastWordEndByte + byteLen w.gap = offset + byteLen (text ++ w.gap)
      rw [hEnd, hStart, hText, byteLen_append, byteLen_append]
      omega
    · rw [List.append_assoc, Word.text, List.append_assoc, List.append_assoc,
        List.singleton_append, List.append_assoc, List.singleton_append]
      refine hCovers _ _ _ ?_
      rw [hEnd] at hRest ⊢
      exact .more hGap hRest
    · rw [wrapPoints, if_pos hWrap, List.map_cons, List.append_assoc, List.singleton_append]
  · rename_i hSame
    refine ⟨gaps, ⟨front, row ++ w.text, ?_, hStart, ?_, fun more lines gaps' hRest => ?_⟩,
      fun rest => ?_⟩
    · rw [hText, List.append_assoc]
    · dsimp only
      rw [hEnd, byteLen_append, Word.text, byteLen_append]
      omega
    · rw [List.append_assoc]
      refine hCovers _ _ _ ?_
      rwa [List.append_assoc] at hRest
    · rw [wrapPoints, if_neg hSame]

theorem Wrapping.Holds.foldl {s : Wrapping} {offset maxWidth : Nat} {text : List Char}
    {gaps : List (List Char)} {words : List Word} (h : s.Holds offset text gaps)
    (hGaps : ∀ w ∈ words, ∀ c ∈ w.gap, isAsciiWhitespace c = true) :
    (words.foldl (Tui.placeWord m maxWidth) s).Holds offset (text ++ words.flatMap Word.text)
      (gaps ++ (wrapPoints m maxWidth s.lineWidth words).map Word.gap) := by
  induction words generalizing s text gaps with
  | nil =>
    rw [List.flatMap_nil, wrapPoints, List.map_nil, List.append_nil, List.append_nil]
    exact h
  | cons w rest ih =>
    obtain ⟨gaps', hNext, hPoints⟩ :=
      @Wrapping.Holds.placeWord m s offset maxWidth text gaps w h (hGaps w List.mem_cons_self)
    rw [List.flatMap_cons, ← List.append_assoc, hPoints]
    exact ih hNext fun w' hMem => hGaps w' (List.mem_cons_of_mem w hMem)

theorem covers_wrapLogical (maxWidth offset : Nat) (logical : List Char) :
    Covers offset logical (wrapLogical m maxWidth offset logical)
      ((wrapPoints m maxWidth 0 (splitWords logical).1).map Word.gap) := by
  have hText := splitWords_text logical
  have hGaps := splitWords_gap logical
  unfold wrapLogical
  split
  · rename_i hEmpty
    rw [hEmpty, splitWords]
    exact @Covers.last offset _ []
  · generalize splitWords logical = split at hText hGaps ⊢
    obtain ⟨words, trailing⟩ := split
    dsimp only at hText hGaps ⊢
    split
    · rename_i hNone
      rw [List.isEmpty_iff.mp hNone]
      exact .last
    · have hStart : (⟨[], offset, 0, offset⟩ : Wrapping).Holds offset [] [] :=
        ⟨[], [], rfl, rfl, rfl, fun more lines gaps' hRest => hRest⟩
      obtain ⟨front, row, hFront, -, hEnd, hCovers⟩ :=
        (@Wrapping.Holds.foldl m _ offset maxWidth [] [] words hStart hGaps).covers
      rw [List.nil_append, List.nil_append] at hCovers
      have hLast := hCovers trailing _ [] (@Covers.last _
        ((words.foldl (placeWord m maxWidth) ⟨[], offset, 0, offset⟩).lineWidth +
          m.width trailing) _)
      rw [List.append_nil, hText] at hLast
      rw [hEnd, Nat.add_assoc, ← byteLen_append]
      exact hLast

/-! ## The whole text -/

theorem logicalLines_cases (text : List Char) :
    logicalLines text = [text] ∨
      ∃ line rest, text = line ++ '\n' :: rest ∧ logicalLines text = line :: logicalLines rest := by
  induction text with
  | nil => exact .inl rfl
  | cons c rest ih =>
    by_cases hLine : c = '\n'
    · subst hLine
      exact .inr ⟨[], rest, rfl, by rw [logicalLines, if_pos rfl]⟩
    · rcases ih with hLast | ⟨line, more, hText, hLines⟩
      · exact .inl (by rw [logicalLines, if_neg hLine, hLast])
      · refine .inr ⟨c :: line, more, by rw [hText]; rfl, ?_⟩
        rw [logicalLines, if_neg hLine, hLines]

/-- The lines cover the text; the gaps between them are the line breaks and those at the wraps. -/
theorem covers_wrapLines (maxWidth offset : Nat) (text : List Char) :
    ∃ gaps, Covers offset text (wrapLines m maxWidth offset (logicalLines text)) gaps ∧
      ((∀ g ∈ gaps, byteLen g ≤ 1) ↔ SingleBreaks m text maxWidth) := by
  induction hLength : text.length using Nat.strongRecOn generalizing offset text with
  | ind n ih =>
    rcases logicalLines_cases text with hLast | ⟨line, rest, hText, hLines⟩
    · refine ⟨(wrapPoints m maxWidth 0 (splitWords text).1).map Word.gap, ?_, ?_⟩
      · rw [hLast, wrapLines, wrapLines, List.append_nil]
        exact covers_wrapLogical maxWidth offset text
      · rw [SingleBreaks, hLast, List.forall_mem_singleton, List.forall_mem_map]
    · have hBreak : ∀ c ∈ ['\n'], isAsciiWhitespace c = true := List.forall_mem_singleton.mpr rfl
      have hOne : byteLen ['\n'] = 1 := by decide
      rw [hText, List.length_append, List.length_cons] at hLength
      obtain ⟨gaps, hRest, hGaps⟩ :=
        ih rest.length (by omega) (offset + byteLen line + 1) rest rfl
      refine ⟨(wrapPoints m maxWidth 0 (splitWords line).1).map Word.gap ++ ['\n'] :: gaps, ?_, ?_⟩
      · rw [hLines, wrapLines, hText, ← List.singleton_append]
        refine (covers_wrapLogical maxWidth offset line).append hBreak ?_
        rw [hOne]
        exact hRest
      · rw [SingleBreaks] at hGaps
        rw [SingleBreaks, hLines, List.forall_mem_cons, List.forall_mem_append,
          List.forall_mem_cons, List.forall_mem_map, hGaps]
        exact and_congr_right fun _ => and_iff_right (Nat.le_of_eq hOne)

theorem Covers.ne_nil {offset : Nat} {text : List Char} {lines : List VisualLineInfo}
    {gaps : List (List Char)} (h : Covers offset text lines gaps) : lines ≠ [] := by
  cases h with
  | last => exact List.cons_ne_nil _ _
  | more => exact List.cons_ne_nil _ _

theorem covers_computeVisualLines (text : List Char) {maxWidth : Nat} (h : 1 ≤ maxWidth) :
    ∃ gaps, Covers 0 text (computeVisualLines m text maxWidth) gaps ∧
      ((∀ g ∈ gaps, byteLen g ≤ 1) ↔ SingleBreaks m text maxWidth) := by
  obtain ⟨gaps, hCovers, hGaps⟩ := covers_wrapLines (m := m) maxWidth 0 text
  refine ⟨gaps, ?_, hGaps⟩
  rw [computeVisualLines, if_neg (by omega)]
  dsimp only
  rw [if_neg (by rw [List.isEmpty_iff]; exact hCovers.ne_nil)]
  exact hCovers

/-! ## Rows -/

section Rows

variable {offset : Nat} {text : List Char} {lines : List VisualLineInfo}
  {gaps : List (List Char)}

/-- A row is a piece of the text. -/
theorem Covers.row (h : Covers offset text lines gaps) {vl : VisualLineInfo} (hMem : vl ∈ lines) :
    ∃ before row after, text = before ++ row ++ after ∧ vl.startByte = offset + byteLen before ∧
      vl.endByte = vl.startByte + byteLen row := by
  induction h with
  | @last offset width row =>
    obtain rfl := List.mem_singleton.mp hMem
    exact ⟨[], row, [], by rw [List.append_nil]; rfl, rfl, rfl⟩
  | @more offset width row gap rest lines gaps _ _ ih =>
    rcases List.mem_cons.mp hMem with rfl | hBehind
    · exact ⟨[], row, gap ++ rest, rfl, rfl, rfl⟩
    · obtain ⟨before, inner, after, hRest, hStart, hEnd⟩ := ih hBehind
      refine ⟨row ++ (gap ++ before), inner, after, ?_, ?_, hEnd⟩
      · rw [hRest]
        simp only [List.append_assoc]
      · rw [hStart, byteLen_append, byteLen_append]
        omega

theorem Covers.start_le (h : Covers offset text lines gaps) {vl : VisualLineInfo}
    (hMem : vl ∈ lines) :
    offset ≤ vl.startByte ∧ vl.startByte ≤ vl.endByte ∧ vl.endByte ≤ offset + byteLen text := by
  obtain ⟨before, row, after, rfl, hStart, hEnd⟩ := h.row hMem
  rw [byteLen_append, byteLen_append]
  omega

theorem Covers.ordered (h : Covers offset text lines gaps) :
    lines.Pairwise fun a b => a.endByte ≤ b.startByte := by
  induction h with
  | last => exact List.pairwise_singleton _ _
  | @more offset width row gap rest lines gaps _ hRest ih =>
    refine List.pairwise_cons.mpr ⟨fun b hMem => ?_, ih⟩
    have hLe := (hRest.start_le hMem).1
    show offset + byteLen row ≤ b.startByte
    omega

end Rows

end Choreographr.Tui
