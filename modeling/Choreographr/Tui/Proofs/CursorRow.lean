import Choreographr.Tui.Proofs.Input

/-!
# The row of the cursor

The lookup takes the first row whose range has the cursor, and the last row when none has. A cursor
within the text is in no range only where a wrap drops more than one byte of whitespace.
-/

namespace Choreographr.Tui

open Lib Tools

variable {m : TextMetrics} {u : UnicodeTables} {w : CharWidths}

/-- The row that `find_cursor_pos` reports. -/
def cursorRow (m : TextMetrics) (text : List Char) (lines : List VisualLineInfo) (cursor : Nat) :
    Nat :=
  (findCursorPos m text cursor lines).1.toNat

/-- The range of the row has the offset. -/
def VisualLineInfo.Has (vl : VisualLineInfo) (cursor : Nat) : Prop :=
  vl.startByte ≤ cursor ∧ cursor ≤ vl.endByte

/-- No wrap drops more than one byte. -/
def NarrowBreaks (lines : List VisualLineInfo) : Prop :=
  ∀ (i : Nat) a b, lines[i]? = some a → lines[i + 1]? = some b → b.startByte ≤ a.endByte + 1

section Rows

variable {text : List Char} {lines : List VisualLineInfo} {gaps : List (List Char)}
  {offset cursor : Nat}

/-! ## The lookup -/

theorem toNat_toUInt16 {n : Nat} (h : n < 65536) : n.toUInt16.toNat = n := by
  rw [Nat.toUInt16, UInt16.toNat_ofNat']
  exact Nat.mod_eq_of_lt h

/-- The row is the first that has the cursor, or the last of all. -/
theorem cursorRow_cases (hLength : lines.length < 65536) (hSome : lines ≠ []) :
    (∃ vl, lines[cursorRow m text lines cursor]? = some vl ∧ vl.Has cursor ∧
      ∀ (j : Nat) a, j < cursorRow m text lines cursor → lines[j]? = some a → ¬ a.Has cursor) ∨
    (cursorRow m text lines cursor = lines.length - 1 ∧ ∀ vl ∈ lines, ¬ vl.Has cursor) := by
  have hHas : ∀ vl : VisualLineInfo,
      (decide (vl.startByte ≤ cursor) && decide (cursor ≤ vl.endByte)) = true ↔ vl.Has cursor := by
    intro vl
    rw [Bool.and_eq_true, decide_eq_true_eq, decide_eq_true_eq]
    rfl
  unfold cursorRow findCursorPos
  split
  · rename_i i hFound
    obtain ⟨hLt, hHere, hBefore⟩ := List.findIdx?_eq_some_iff_getElem.mp hFound
    dsimp only
    rw [toNat_toUInt16 (by omega)]
    refine .inl ⟨lines[i], List.getElem?_eq_getElem hLt, (hHas _).mp hHere, ?_⟩
    intro j a hj hGet hHere
    obtain ⟨_, rfl⟩ := List.getElem?_eq_some_iff.mp hGet
    exact hBefore j hj ((hHas _).mpr hHere)
  · rename_i hNone
    obtain ⟨last, hLast⟩ := Option.ne_none_iff_exists'.mp
      (fun hNil => hSome (List.getLast?_eq_none_iff.mp hNil))
    rw [hLast]
    dsimp only
    rw [toNat_toUInt16 (by omega)]
    refine .inr ⟨rfl, fun vl hMem hHere => ?_⟩
    have hOut := List.findIdx?_eq_none_iff.mp hNone vl hMem
    rw [(hHas vl).mpr hHere] at hOut
    cases hOut

/-! ## Narrow breaks -/

theorem Covers.head_start (h : Covers offset text lines gaps) {vl : VisualLineInfo}
    (hHead : lines[0]? = some vl) : vl.startByte = offset := by
  cases h with
  | last =>
    cases hHead
    rfl
  | more =>
    cases hHead
    rfl

/-- The breaks are narrow if the gaps are. -/
theorem Covers.narrow_iff (h : Covers offset text lines gaps) :
    NarrowBreaks lines ↔ ∀ g ∈ gaps, byteLen g ≤ 1 := by
  induction h with
  | last =>
    refine ⟨fun _ g hMem => absurd hMem List.not_mem_nil, fun _ i a b _ hb => ?_⟩
    cases hb
  | @more offset width row gap rest lines gaps _ hRest ih =>
    obtain ⟨next, more, rfl⟩ := List.exists_cons_of_ne_nil hRest.ne_nil
    have hStart : next.startByte = _ := hRest.head_start rfl
    rw [List.forall_mem_cons, ← ih]
    constructor
    · intro h
      refine ⟨?_, fun i a b ha hb => h (i + 1) a b ha hb⟩
      have hStep : next.startByte ≤ offset + byteLen row + 1 := h 0 _ next rfl rfl
      omega
    · rintro ⟨hFirst, hBehind⟩ i a b ha hb
      cases i with
      | zero =>
        cases ha
        cases hb
        show next.startByte ≤ offset + byteLen row + 1
        omega
      | succ i => exact hBehind i a b ha hb

/-- With narrow breaks some row has the cursor. -/
theorem Covers.exists_row (h : Covers offset text lines gaps) (hNarrow : NarrowBreaks lines)
    (hLow : offset ≤ cursor) (hHigh : cursor ≤ offset + byteLen text) :
    ∃ vl ∈ lines, vl.Has cursor := by
  induction h with
  | @last offset width row => exact ⟨_, List.mem_singleton_self _, hLow, hHigh⟩
  | @more offset width row gap rest lines gaps hGap hRest ih =>
    by_cases hHere : cursor ≤ offset + byteLen row
    · exact ⟨_, List.mem_cons_self, hLow, hHere⟩
    · obtain ⟨next, more, rfl⟩ := List.exists_cons_of_ne_nil hRest.ne_nil
      have hStart : next.startByte = _ := hRest.head_start rfl
      have hStep : next.startByte ≤ offset + byteLen row + 1 := hNarrow 0 _ next rfl rfl
      rw [byteLen_append, byteLen_append] at hHigh
      obtain ⟨vl, hMem, hHas⟩ :=
        ih (fun i a b ha hb => hNarrow (i + 1) a b ha hb) (by omega) (by omega)
      exact ⟨vl, List.mem_cons_of_mem _ hMem, hHas⟩

theorem Covers.end_le_start (h : Covers offset text lines gaps) {i j : Nat} {a b : VisualLineInfo}
    (ha : lines[i]? = some a) (hb : lines[j]? = some b) (hLt : i < j) :
    a.endByte ≤ b.startByte := by
  obtain ⟨hi, rfl⟩ := List.getElem?_eq_some_iff.mp ha
  obtain ⟨hj, rfl⟩ := List.getElem?_eq_some_iff.mp hb
  exact List.pairwise_iff_getElem.mp h.ordered i j hi hj hLt

/-- A wide break has a cursor that no row has; the last row starts behind it. -/
theorem Covers.lost_of_wide (h : Covers offset text lines gaps) {i : Nat} {a b : VisualLineInfo}
    (ha : lines[i]? = some a) (hb : lines[i + 1]? = some b) (hWide : a.endByte + 1 < b.startByte) :
    ∀ vl ∈ lines, ¬ vl.Has (a.endByte + 1) := by
  rintro vl hMem ⟨hLow, hHigh⟩
  obtain ⟨j, hj⟩ := List.getElem?_of_mem hMem
  have hMono : a.startByte ≤ a.endByte := (h.start_le (List.mem_of_getElem? ha)).2.1
  have hMonoV : vl.startByte ≤ vl.endByte := (h.start_le hMem).2.1
  have hMonoB : b.startByte ≤ b.endByte := (h.start_le (List.mem_of_getElem? hb)).2.1
  rcases Nat.lt_trichotomy j i with hLt | rfl | hGt
  · have hBefore := h.end_le_start hj ha hLt
    omega
  · rw [ha] at hj
    cases hj
    omega
  · rcases Nat.lt_or_eq_of_le hGt with hFar | hNext
    · have hBehind := h.end_le_start hb hj hFar
      omega
    · rw [← hNext, hb] at hj
      cases hj
      omega

end Rows

/-! ## The cached lines of a run -/

namespace InputBuffer

variable {s s' : InputBuffer}

theorem Cached.drain (h : s.Cached m) {start stop : Nat} (hDrain : s.drain start stop = some s') :
    s'.Cached m := by
  obtain ⟨text, -, rfl⟩ := Option.map_eq_some_iff.mp hDrain
  exact h.edited rfl rfl

theorem Cached.transposeChars (h : s.Cached m) (hApply : s.transposeChars m = some s') :
    s'.Cached m := by
  unfold InputBuffer.transposeChars at hApply
  split at hApply
  · cases hApply
    exact h
  split at hApply
  · cases hApply
    exact h
  · dsimp only at hApply
    split at hApply
    · cases hApply
      exact h.edited rfl rfl
    · split at hApply
      · cases hApply
        exact h
      · obtain ⟨kept, -, rfl⟩ := Option.map_eq_some_iff.mp hApply
        exact h.edited rfl rfl

theorem Cached.apply (h : s.Cached m) {op : InputOp} (hApply : s.apply m u w op = some s') :
    s'.Cached m := by
  cases op with
  | clear =>
    cases hApply
    unfold InputBuffer.clear
    split
    · exact h
    · exact h.edited rfl rfl
  | insertChar c =>
    obtain ⟨text, -, rfl⟩ := Option.map_eq_some_iff.mp hApply
    exact h.edited rfl rfl
  | paste data =>
    rw [InputBuffer.apply, insertStrAtCursor] at hApply
    split at hApply
    · cases hApply
      exact h
    · obtain ⟨text, -, rfl⟩ := Option.map_eq_some_iff.mp hApply
      exact h.edited rfl rfl
  | backspace =>
    rw [InputBuffer.apply, backspaceAtCursor] at hApply
    split at hApply
    · cases hApply
      exact h
    split at hApply
    · exact h.drain hApply
    · cases hApply
      exact h.edited rfl rfl
  | delete =>
    rw [InputBuffer.apply, deleteAtCursor] at hApply
    split at hApply
    · cases hApply
      exact h
    split at hApply
    · exact h.drain hApply
    · cases hApply
      exact h.edited rfl rfl
  | deleteWordBackward =>
    rw [InputBuffer.apply, InputBuffer.deleteWordBackward] at hApply
    split at hApply
    · cases hApply
      exact h
    · exact h.drain hApply
  | deleteWordForward =>
    rw [InputBuffer.apply, InputBuffer.deleteWordForward] at hApply
    split at hApply
    · cases hApply
      exact h
    · exact h.drain hApply
  | deleteToStart =>
    rw [InputBuffer.apply, InputBuffer.deleteToStart] at hApply
    split at hApply
    · cases hApply
      exact h
    · exact h.drain hApply
  | killLine =>
    rw [InputBuffer.apply, InputBuffer.killLine] at hApply
    split at hApply
    · cases hApply
      exact h
    · exact h.drain hApply
  | transposeChars => exact h.transposeChars hApply
  | cursorLeft =>
    cases hApply
    unfold InputBuffer.cursorLeft
    split
    · exact h
    · exact h
  | cursorRight =>
    cases hApply
    unfold InputBuffer.cursorRight
    split
    · exact h
    · exact h
  | cursorHome =>
    cases hApply
    exact h
  | cursorEnd =>
    cases hApply
    exact h
  | wordLeft =>
    cases hApply
    exact h
  | wordRight =>
    cases hApply
    exact h
  | cursorHomeLine =>
    cases hApply
    exact h
  | cursorEndLine =>
    cases hApply
    exact h
  | cursorUp maxWidth =>
    cases hApply
    have hCached := (h.cachedVisualLines maxWidth).2.1
    unfold InputBuffer.cursorUp
    split
    · exact h
    · dsimp only
      split
      · exact hCached
      split
      · exact hCached
      · exact hCached
  | cursorDown maxWidth =>
    cases hApply
    have hCached := (h.cachedVisualLines maxWidth).2.1
    unfold InputBuffer.cursorDown
    split
    · exact h
    · dsimp only
      split
      · exact hCached
      split
      · exact hCached
      · exact hCached
  | ensureVisible maxWidth visibleHeight =>
    cases hApply
    have hCached := (h.cachedVisualLines maxWidth).2.1
    unfold InputBuffer.ensureCursorVisible
    split
    · exact h
    · dsimp only
      split
      · exact hCached
      · exact hCached
  | click maxWidth visibleHeight row col =>
    cases hApply
    have hCached := (h.cachedVisualLines maxWidth).2.1
    unfold InputBuffer.click
    split
    · exact h
    · dsimp only
      split
      · exact hCached
      · exact hCached

theorem Cached.applyAll (h : s.Cached m) {ops : List InputOp}
    (hApply : s.applyAll m u w ops = some s') : s'.Cached m := by
  induction ops generalizing s with
  | nil =>
    cases hApply
    exact h
  | cons op rest ih =>
    obtain ⟨next, hNext, hRest⟩ := Option.bind_eq_some_iff.mp hApply
    exact ih (h.apply hNext) hRest

/-- The window holds the row of the cursor. -/
theorem Cached.visible (h : s.Cached m) {maxWidth height : Nat} (hWidth : 1 ≤ maxWidth)
    (hHeight : 0 < height) (hLength : (computeVisualLines m s.text maxWidth).length < 65536) :
    (s.ensureCursorVisible m maxWidth height).scrollOffset ≤
        cursorRow m s.text (computeVisualLines m s.text maxWidth) s.cursor ∧
      cursorRow m s.text (computeVisualLines m s.text maxWidth) s.cursor <
        (s.ensureCursorVisible m maxWidth height).scrollOffset + height := by
  obtain ⟨hLines, -, hText, hCursor, hScroll⟩ := h.cachedVisualLines maxWidth
  obtain ⟨gaps, hCovers, -⟩ := covers_computeVisualLines (m := m) s.text hWidth
  have hSome := hCovers.ne_nil
  have hRow : cursorRow m s.text (computeVisualLines m s.text maxWidth) s.cursor <
      (computeVisualLines m s.text maxWidth).length := by
    rcases @cursorRow_cases m s.text _ s.cursor hLength hSome with
      ⟨vl, hGet, -⟩ | ⟨hLast, -⟩
    · exact (List.getElem?_eq_some_iff.mp hGet).1
    · have hPos := List.length_pos_iff.mpr hSome
      omega
  unfold InputBuffer.ensureCursorVisible
  rw [if_neg (by omega)]
  dsimp only
  rw [hLines, hText, hCursor, hScroll]
  generalize hGen :
    cursorRow m s.text (computeVisualLines m s.text maxWidth) s.cursor = row at hRow ⊢
  rw [cursorRow] at hGen
  rw [hGen]
  split
  · rename_i hFits
    dsimp only
    omega
  · dsimp only
    split <;> split <;> omega

end InputBuffer

/-! ## The row of every cursor -/

/-- The rows cover the text, the row of the cursor goes with the cursor and stands where the cursor
is, and the window of a buffer holds it. -/
structure RowsLocate (m : TextMetrics) (u : UnicodeTables) (w : CharWidths) (text : List Char)
    (maxWidth : Nat) (lines : List VisualLineInfo) : Prop where
  ordered : lines.Pairwise fun a b => a.endByte ≤ b.startByte
  ranges : ∀ vl ∈ lines, vl.startByte ≤ vl.endByte ∧ vl.endByte ≤ byteLen text
  outside : ∀ before c after, text = before ++ c :: after →
    (∃ vl ∈ lines, vl.startByte ≤ byteLen before ∧ byteLen before + c.utf8Size ≤ vl.endByte) ∨
      (isAsciiWhitespace c = true ∧ ∃ (i : Nat) (a b : VisualLineInfo), lines[i]? = some a ∧
        lines[i + 1]? = some b ∧ a.endByte ≤ byteLen before ∧
        byteLen before + c.utf8Size ≤ b.startByte)
  monotone : ∀ c c', c ≤ c' → c' ≤ byteLen text →
    cursorRow m text lines c ≤ cursorRow m text lines c'
  locates : ∀ cursor ≤ byteLen text, ∃ vl, lines[cursorRow m text lines cursor]? = some vl ∧
    vl.startByte ≤ cursor ∧
    ∀ next, lines[cursorRow m text lines cursor + 1]? = some next → cursor ≤ next.startByte
  visible : ∀ ops (s : InputBuffer), ({} : InputBuffer).applyAll m u w ops = some s →
    s.text = text → ∀ height, 0 < height →
    (s.ensureCursorVisible m maxWidth height).scrollOffset ≤ cursorRow m text lines s.cursor ∧
      cursorRow m text lines s.cursor <
        (s.ensureCursorVisible m maxWidth height).scrollOffset + height

/-- A character that no row has is whitespace between two rows. -/
theorem Covers.outside {text : List Char} {lines : List VisualLineInfo} {gaps : List (List Char)}
    {offset : Nat} (h : Covers offset text lines gaps) {before after : List Char} {c : Char}
    (hText : text = before ++ c :: after) :
    (∃ vl ∈ lines, vl.startByte ≤ offset + byteLen before ∧
        offset + byteLen before + c.utf8Size ≤ vl.endByte) ∨
      (isAsciiWhitespace c = true ∧ ∃ (i : Nat) (a b : VisualLineInfo), lines[i]? = some a ∧
        lines[i + 1]? = some b ∧ a.endByte ≤ offset + byteLen before ∧
        offset + byteLen before + c.utf8Size ≤ b.startByte) := by
  induction h generalizing before with
  | @last offset width row =>
    refine .inl ⟨_, List.mem_singleton_self _, Nat.le_add_right _ _, ?_⟩
    rw [hText, byteLen_append, byteLen_cons]
    dsimp only
    omega
  | @more offset width row gap rest lines gaps hGap hRest ih =>
    rcases append_eq_append_cons hText with ⟨back, hRow, -⟩ | ⟨inner, rfl, hBehind⟩
    · refine .inl ⟨_, List.mem_cons_self, Nat.le_add_right _ _, ?_⟩
      rw [hRow, byteLen_append, byteLen_cons]
      dsimp only
      omega
    rcases append_eq_append_cons hBehind with ⟨back, hInGap, -⟩ | ⟨deep, rfl, hDeep⟩
    · obtain ⟨next, more, rfl⟩ := List.exists_cons_of_ne_nil hRest.ne_nil
      have hStart : next.startByte = _ := hRest.head_start rfl
      have hSpace := hGap c (hInGap ▸ List.mem_append_right _ List.mem_cons_self)
      refine .inr ⟨hSpace, 0, _, next, rfl, rfl, ?_, ?_⟩
      · rw [byteLen_append]
        exact Nat.add_le_add_left (Nat.le_add_right _ _) offset
      · rw [hStart, hInGap, byteLen_append, byteLen_append, byteLen_cons]
        omega
    · have hSame : offset + byteLen (row ++ (gap ++ deep)) =
          offset + byteLen row + byteLen gap + byteLen deep := by
        rw [byteLen_append, byteLen_append]
        omega
      rw [hSame]
      rcases ih hDeep with ⟨vl, hMem, hHas⟩ | ⟨hSpace, i, a, b, ha, hb, hBetween⟩
      · exact .inl ⟨vl, List.mem_cons_of_mem _ hMem, hHas⟩
      · exact .inr ⟨hSpace, i + 1, a, b, ha, hb, hBetween⟩

section Locate

variable {text : List Char} {lines : List VisualLineInfo} {gaps : List (List Char)}

theorem Covers.cursorRow_has (h : Covers 0 text lines gaps) (hLength : lines.length < 65536)
    (hNarrow : NarrowBreaks lines) {cursor : Nat} (hCursor : cursor ≤ byteLen text) :
    ∃ vl, lines[cursorRow m text lines cursor]? = some vl ∧ vl.Has cursor ∧
      ∀ (j : Nat) a, j < cursorRow m text lines cursor → lines[j]? = some a → ¬ a.Has cursor := by
  rcases @cursorRow_cases m text _ cursor hLength h.ne_nil with
    hHere | ⟨-, hNone⟩
  · exact hHere
  · obtain ⟨vl, hMem, hHas⟩ := h.exists_row hNarrow (Nat.zero_le cursor) (by omega)
    exact absurd hHas (hNone vl hMem)

theorem Covers.cursorRow_mono (h : Covers 0 text lines gaps) (hLength : lines.length < 65536)
    (hNarrow : NarrowBreaks lines) {c c' : Nat} (hLe : c ≤ c') (hCursor : c' ≤ byteLen text) :
    cursorRow m text lines c ≤ cursorRow m text lines c' := by
  obtain ⟨vl, hGet, hHas, hFirst⟩ :=
    h.cursorRow_has (m := m) hLength hNarrow (Nat.le_trans hLe hCursor)
  obtain ⟨vl', hGet', hHas', -⟩ := h.cursorRow_has (m := m) hLength hNarrow hCursor
  refine Nat.le_of_not_lt fun hLt => ?_
  have hBefore := h.end_le_start hGet' hGet hLt
  have hMono := (h.start_le (List.mem_of_getElem? hGet')).2.1
  exact hFirst _ vl' hLt hGet' ⟨by have := hHas.1; omega, by have := hHas'.2; have := hHas.1; omega⟩

theorem Covers.locates (h : Covers 0 text lines gaps) (hLength : lines.length < 65536)
    (hNarrow : NarrowBreaks lines) {cursor : Nat} (hCursor : cursor ≤ byteLen text) :
    ∃ vl, lines[cursorRow m text lines cursor]? = some vl ∧ vl.startByte ≤ cursor ∧
      ∀ next, lines[cursorRow m text lines cursor + 1]? = some next → cursor ≤ next.startByte := by
  obtain ⟨vl, hGet, hHas, -⟩ := h.cursorRow_has (m := m) hLength hNarrow hCursor
  refine ⟨vl, hGet, hHas.1, fun next hNext => ?_⟩
  exact Nat.le_trans hHas.2 (h.end_le_start hGet hNext (Nat.lt_succ_self _))

/-- Where every cursor is located, no break is wide. -/
theorem Covers.narrow_of_locates (h : Covers 0 text lines gaps) (hLength : lines.length < 65536)
    (hLocates : ∀ cursor ≤ byteLen text, ∃ vl, lines[cursorRow m text lines cursor]? = some vl ∧
      vl.startByte ≤ cursor) : NarrowBreaks lines := by
  intro i a b ha hb
  refine Nat.le_of_not_lt fun hWide => ?_
  have hEnd := (h.start_le (List.mem_of_getElem? hb)).2
  obtain ⟨vl, hGet, hStart⟩ := hLocates (a.endByte + 1) (by omega)
  have hNone := h.lost_of_wide ha hb hWide
  rcases @cursorRow_cases m text _ (a.endByte + 1) hLength h.ne_nil with
    ⟨vl', hGet', hHas, -⟩ | ⟨hLast, -⟩
  · exact hNone vl' (List.mem_of_getElem? hGet') hHas
  · rw [hLast] at hGet
    have hMono := (h.start_le (List.mem_of_getElem? hb)).2.1
    obtain ⟨hIn, -⟩ := List.getElem?_eq_some_iff.mp hb
    rcases Nat.lt_or_eq_of_le (show i + 1 ≤ lines.length - 1 by omega) with hLt | hSame
    · have hBehind := h.end_le_start hb hGet hLt
      omega
    · rw [← hSame, hb] at hGet
      cases hGet
      omega

end Locate

/-- The row of the cursor is located in a text if and only if no wrap drops more than a byte; the
rows cover the text, and the window holds the row, in any case. -/
theorem rowsLocate_iff (m : TextMetrics) (u : UnicodeTables) (w : CharWidths) (text : List Char)
    (maxWidth : Nat) (hWidth : 1 ≤ maxWidth)
    (hLength : (computeVisualLines m text maxWidth).length < 65536) :
    RowsLocate m u w text maxWidth (computeVisualLines m text maxWidth) ↔
      SingleBreaks m text maxWidth := by
  obtain ⟨gaps, hCovers, hGaps⟩ := covers_computeVisualLines (m := m) text hWidth
  rw [← hGaps, ← hCovers.narrow_iff]
  constructor
  · intro h
    refine hCovers.narrow_of_locates (m := m) hLength fun cursor hCursor => ?_
    obtain ⟨vl, hGet, hStart, -⟩ := h.locates cursor hCursor
    exact ⟨vl, hGet, hStart⟩
  · intro hNarrow
    refine ⟨hCovers.ordered, fun vl hMem => ?_, fun before c after hText => ?_,
      fun c c' => hCovers.cursorRow_mono hLength hNarrow,
      fun cursor => hCovers.locates hLength hNarrow, fun ops s hRun hText height hHeight => ?_⟩
    · have hRange := (hCovers.start_le hMem).2
      omega
    · have hOutside := hCovers.outside hText
      rwa [Nat.zero_add] at hOutside
    · have hCached := InputBuffer.Cached.initial.applyAll hRun
      subst hText
      exact hCached.visible hWidth hHeight hLength

/-! ## One space and two -/

theorem oneSpace_lines :
    computeVisualLines sampleMetrics "aa bb".toList 3 = [⟨0, 2, 2⟩, ⟨3, 5, 2⟩] := by
  decide +kernel

theorem oneSpace_logicalLines : logicalLines "aa bb".toList = ["aa bb".toList] := by
  decide

theorem oneSpace_wraps :
    wrapPoints sampleMetrics 3 0 (splitWords "aa bb".toList).1 = [⟨[' '], ['b', 'b']⟩] := by
  decide +kernel

theorem twoSpaces_lines :
    computeVisualLines sampleMetrics "aa  bb".toList 3 = [⟨0, 2, 2⟩, ⟨4, 6, 2⟩] := by
  decide +kernel

theorem oneSpace_locates :
    RowsLocate sampleMetrics sampleTables sampleWidths "aa bb".toList 3
      (computeVisualLines sampleMetrics "aa bb".toList 3) := by
  refine (rowsLocate_iff sampleMetrics sampleTables sampleWidths "aa bb".toList 3 (by decide)
    (by rw [oneSpace_lines]; decide)).mpr fun logical hLogical w hWrap => ?_
  obtain rfl := List.mem_singleton.mp (oneSpace_logicalLines ▸ hLogical)
  rw [oneSpace_wraps] at hWrap
  obtain rfl := List.mem_singleton.mp hWrap
  decide

/-- Between the two spaces at the wrap, the cursor is reported on the row behind them. -/
theorem twoSpaces_not_located :
    ¬ ∀ (text : List Char) (maxWidth : Nat), 1 ≤ maxWidth →
      (computeVisualLines sampleMetrics text maxWidth).length < 65536 →
      RowsLocate sampleMetrics sampleTables sampleWidths text maxWidth
        (computeVisualLines sampleMetrics text maxWidth) := by
  intro h
  obtain ⟨vl, hGet, hStart, -⟩ :=
    (h "aa  bb".toList 3 (by decide) (by rw [twoSpaces_lines]; decide)).locates 3 (by decide)
  rw [twoSpaces_lines] at hGet
  have hRow : cursorRow sampleMetrics "aa  bb".toList [⟨0, 2, 2⟩, ⟨4, 6, 2⟩] 3 = 1 := by decide
  rw [hRow] at hGet
  cases hGet
  exact absurd hStart (by decide)

end Choreographr.Tui
