import Choreographr.Tools.Proofs.Sanitize
import Choreographr.Tui.Input
import Choreographr.Tui.Proofs.VisualLines

/-!
# The cursor stays on a character boundary

Every operation computes its offsets from a cut of the text at the cursor, and all but one of them
at the edge of a piece of that cut. The exception is the start of a word: one byte behind the
beginning of the whitespace before it.
-/

namespace Choreographr.Tui

open Lib Tools Session

variable {m : TextMetrics} {u : UnicodeTables} {w : CharWidths} {s : InputBuffer} {s' : InputBuffer}
  {back front gone text : List Char} {op : InputOp}

/-! ## Sound buffers -/

namespace InputBuffer

/-- Cached lines of this generation are those of the text. -/
def Cached (m : TextMetrics) (s : InputBuffer) : Prop :=
  ∀ generation width lines, s.linesCache = some (generation, width, lines) →
    generation ≤ s.generation ∧
      (generation = s.generation → lines = computeVisualLines m s.text width)

structure Sound (m : TextMetrics) (s : InputBuffer) : Prop where
  boundary : IsBoundary s.text s.cursor
  cache : s.Cached m

theorem Cached.initial : ({} : InputBuffer).Cached m := fun _ _ _ h => by cases h

theorem Sound.initial : ({} : InputBuffer).Sound m := ⟨⟨[], [], rfl, rfl⟩, Cached.initial⟩

theorem Cached.edited (h : s.Cached m) (hGeneration : s'.generation = s.generation + 1)
    (hCache : s'.linesCache = s.linesCache) : s'.Cached m := by
  intro generation width lines hLines
  have hOld := (h generation width lines (hCache ▸ hLines)).1
  exact ⟨by omega, fun hSame => by omega⟩

theorem Cached.cachedVisualLines (h : s.Cached m) (maxWidth : Nat) :
    (s.cachedVisualLines m maxWidth).2 = computeVisualLines m s.text maxWidth ∧
      (s.cachedVisualLines m maxWidth).1.Cached m ∧
      (s.cachedVisualLines m maxWidth).1.text = s.text ∧
      (s.cachedVisualLines m maxWidth).1.cursor = s.cursor ∧
      (s.cachedVisualLines m maxWidth).1.scrollOffset = s.scrollOffset := by
  have hFresh : ∀ cached,
      cached = some (s.generation, maxWidth, computeVisualLines m s.text maxWidth) →
      ({ s with linesCache := cached } : InputBuffer).Cached m := by
    rintro cached rfl generation width lines hLines
    cases hLines
    exact ⟨Nat.le_refl _, fun _ => rfl⟩
  unfold InputBuffer.cachedVisualLines
  dsimp only
  split
  · exact ⟨rfl, hFresh _ rfl, rfl, rfl, rfl⟩
  · rename_i generation width lines hCache
    split
    · exact ⟨rfl, hFresh _ rfl, rfl, rfl, rfl⟩
    · rename_i hCurrent
      obtain ⟨hGeneration, hWidth⟩ := not_or.mp hCurrent
      have hSame := (h generation width lines hCache).2 (Classical.not_not.mp hGeneration)
      rw [Classical.not_not.mp hWidth] at hSame
      exact ⟨hSame, h, rfl, rfl, rfl⟩

theorem Sound.split (h : s.Sound m) :
    s.text = s.before ++ s.after ∧ byteLen s.before = s.cursor := by
  obtain ⟨front, back, hText, hLength⟩ := h.boundary
  have hSplit := splitAtByte_eq_some.mpr ⟨hText, hLength⟩
  rw [before, after, hSplit]
  exact ⟨hText, hLength⟩

theorem Sound.withCursor (h : s.Sound m) {cursor : Nat} (hBoundary : IsBoundary s.text cursor) :
    ({ s with cursor } : InputBuffer).Sound m :=
  ⟨hBoundary, h.cache⟩

theorem Sound.withScroll (h : s.Sound m) (scrollOffset : Nat) :
    ({ s with scrollOffset } : InputBuffer).Sound m :=
  ⟨h.boundary, h.cache⟩

theorem Sound.edited (h : s.Sound m) (hGeneration : s'.generation = s.generation + 1)
    (hCache : s'.linesCache = s.linesCache) (hBoundary : IsBoundary s'.text s'.cursor) :
    s'.Sound m :=
  ⟨hBoundary, h.cache.edited hGeneration hCache⟩

/-! ## Pieces of the text -/

theorem lastGrapheme_some {g : List Char} {start : Nat} (h : lastGrapheme m text = some (start, g)) :
    ∃ front, text = front ++ g ∧ byteLen front = start := by
  obtain ⟨last, hLast, hPair⟩ := Option.map_eq_some_iff.mp h
  cases hPair
  have hSplit := List.dropLast_append_getLast? _ hLast
  refine ⟨(m.graphemes text).dropLast.flatten, ?_, rfl⟩
  conv => lhs; rw [← m.flatten text, ← hSplit, List.flatten_append]
  rw [List.flatten_singleton]

theorem lastGrapheme_none (h : lastGrapheme m text = none) : text = [] := by
  have hNone := List.getLast?_eq_none_iff.mp (Option.map_eq_none_iff.mp h)
  rw [← m.flatten text, hNone, List.flatten_nil]

theorem firstGrapheme_some {g : List Char} (h : firstGrapheme m text = some g) :
    ∃ back, text = g ++ back := by
  obtain ⟨rest, hRest⟩ := List.head?_eq_some_iff.mp h
  refine ⟨rest.flatten, ?_⟩
  conv => lhs; rw [← m.flatten text, hRest, List.flatten_cons]

theorem firstGrapheme_none (h : firstGrapheme m text = none) : text = [] := by
  rw [← m.flatten text, List.head?_eq_none_iff.mp h, List.flatten_nil]

/-- The last character that satisfies `p`, and where it stands. -/
theorem rfindByte_cases (p : Char → Bool) (text : List Char) :
    (rfindByte p text = none ∧ text.reverse.find? p = none) ∨
      ∃ front c back, text = front ++ c :: back ∧ rfindByte p text = some (byteLen front) ∧
        text.reverse.find? p = some c := by
  by_cases hAny : ∃ c ∈ text, p c = true
  · obtain ⟨front, c, back, hText, hc, hNone⟩ := exists_last_match hAny
    refine .inr ⟨front, c, back, hText, ?_, ?_⟩
    · rw [rfindByte, hText, rposition_append_cons hc hNone, Option.map_some, List.take_left]
    · rw [hText, List.reverse_append, List.reverse_cons, List.append_assoc, List.find?_append,
        List.find?_eq_none.mpr fun d hd => by simp [hNone d (List.mem_reverse.mp hd)]]
      simp [hc]
  · have hNone : ∀ d ∈ text, p d = false := by
      intro d hd
      rw [← Bool.not_eq_true]
      exact fun hp => hAny ⟨d, hd, hp⟩
    refine .inl ⟨?_, ?_⟩
    · rw [rfindByte, rposition_eq_none hNone]
      rfl
    · exact List.find?_eq_none.mpr fun d hd => by simp [hNone d (List.mem_reverse.mp hd)]

/-! ## Moves -/

theorem Sound.boundary_before (h : s.Sound m) (hBefore : s.before = front ++ back) :
    IsBoundary s.text (byteLen front) := by
  rw [h.split.1, hBefore, List.append_assoc]
  exact isBoundary_append front _

theorem Sound.boundary_after (h : s.Sound m) (hAfter : s.after = front ++ back) :
    IsBoundary s.text (s.cursor + byteLen front) := by
  rw [h.split.1, hAfter, ← h.split.2, ← byteLen_append, ← List.append_assoc]
  exact isBoundary_append _ back

theorem Sound.cursorLeft (h : s.Sound m) : (s.cursorLeft m).Sound m := by
  unfold InputBuffer.cursorLeft
  split
  · rename_i start g hLast
    obtain ⟨front, hBefore, rfl⟩ := lastGrapheme_some hLast
    exact h.withCursor (h.boundary_before hBefore)
  · exact h

theorem Sound.cursorRight (h : s.Sound m) : (s.cursorRight m).Sound m := by
  unfold InputBuffer.cursorRight
  split
  · rename_i g hFirst
    obtain ⟨back, hAfter⟩ := firstGrapheme_some hFirst
    exact h.withCursor (h.boundary_after hAfter)
  · exact h

theorem Sound.cursorHome (h : s.Sound m) : s.cursorHome.Sound m :=
  h.withCursor ⟨[], s.text, rfl, rfl⟩

theorem Sound.cursorEnd (h : s.Sound m) : s.cursorEnd.Sound m :=
  h.withCursor ⟨s.text, [], (List.append_nil _).symm, rfl⟩

/-- What is between the cursor and the next word. -/
theorem wordRightBoundary_eq (s : InputBuffer) :
    ∃ gone back, s.after = gone ++ back ∧ s.wordRightBoundary = s.cursor + byteLen gone := by
  unfold wordRightBoundary
  dsimp only
  split
  · exact ⟨[], s.after, rfl, rfl⟩
  · generalize hBehind : (if (s.after.head?.all fun c => !isWhitespace c) = true then
        (s.after.dropWhile fun c => !isWhitespace c).drop 1 else s.after) = behindWord
    have hSuffix : behindWord.dropWhile isWhitespace <:+ s.after := by
      refine (List.dropWhile_suffix isWhitespace).trans ?_
      rw [← hBehind]
      split
      · exact (List.drop_suffix 1 _).trans (List.dropWhile_suffix _)
      · exact List.suffix_refl _
    obtain ⟨gone, hGone⟩ := hSuffix
    refine ⟨gone, _, hGone.symm, ?_⟩
    have hLength :
        byteLen s.after = byteLen gone + byteLen (behindWord.dropWhile isWhitespace) := by
      rw [← byteLen_append, hGone]
    split
    · rename_i hNext
      rw [hNext, byteLen_nil] at hLength
      rw [hLength, Nat.add_zero]
    · rw [hLength, Nat.add_sub_cancel]

theorem Sound.wordRight (h : s.Sound m) : s.wordRight.Sound m := by
  obtain ⟨gone, back, hAfter, hBoundary⟩ := wordRightBoundary_eq s
  refine h.withCursor ?_
  rw [hBoundary]
  exact h.boundary_after hAfter

theorem Sound.cursorHomeLine (h : s.Sound m) : s.cursorHomeLine.Sound m := by
  have hOne : ('\n').utf8Size = 1 := by decide
  refine h.withCursor ?_
  rcases rfindByte_cases (· == '\n') s.before with
    ⟨hNone, -⟩ | ⟨front, c, back, hText, hFound, hLast⟩
  · rw [hNone]
    exact ⟨[], s.text, rfl, rfl⟩
  · have hLine : (c == '\n') = true := List.find?_some (p := (· == '\n')) hLast
    obtain rfl := eq_of_beq hLine
    rw [hFound]
    have hSplit : s.before = (front ++ ['\n']) ++ back := by
      rw [hText, List.append_assoc]
      rfl
    have hBoundary := h.boundary_before hSplit
    rwa [byteLen_append, byteLen_cons, byteLen_nil, hOne] at hBoundary

theorem lineRest_eq (s : InputBuffer) :
    ∃ gone back, s.after = gone ++ back ∧ s.lineRest = byteLen gone :=
  ⟨_, _, (List.takeWhile_append_dropWhile (p := fun c => c != '\n')).symm, rfl⟩

theorem Sound.cursorEndLine (h : s.Sound m) : s.cursorEndLine.Sound m := by
  obtain ⟨gone, back, hAfter, hRest⟩ := lineRest_eq s
  refine h.withCursor ?_
  rw [hRest]
  exact h.boundary_after hAfter

/-! ## The start of a word -/

/-- The whitespace before the word before the cursor is one byte long. -/
def wordLeftClean (s : InputBuffer) : Bool :=
  ((s.before.rdropWhile isWhitespace).reverse.find? isWhitespace).all fun c => c.utf8Size == 1

theorem wordLeftBoundary_cases (s : InputBuffer) :
    (s.wordLeftBoundary = 0 ∧ s.wordLeftClean = true) ∨
      ∃ front c back, s.before = front ++ c :: back ∧ s.wordLeftBoundary = byteLen front + 1 ∧
        (s.wordLeftClean = true ↔ c.utf8Size = 1) := by
  unfold wordLeftBoundary wordLeftClean
  obtain ⟨spaces, hSpaces⟩ : s.before.rdropWhile isWhitespace <+: s.before :=
    List.rdropWhile_prefix _ _
  generalize s.before.rdropWhile isWhitespace = trimmed at hSpaces ⊢
  dsimp only
  rcases rfindByte_cases isWhitespace trimmed with
    ⟨hNone, hFind⟩ | ⟨front, c, back, hText, hFound, hFind⟩
  · rw [hNone, hFind]
    exact .inl ⟨by simp, rfl⟩
  · refine .inr ⟨front, c, back ++ spaces, ?_, ?_, ?_⟩
    · rw [← hSpaces, hText, List.append_assoc]
      rfl
    · rw [if_neg (by rw [hText]; simp), hFound]
      rfl
    · rw [hFind, Option.all_some, beq_iff_eq]

/-- The start of the word is a boundary exactly when the whitespace before it is one byte long. -/
theorem Sound.wordLeft_iff (h : s.Sound m) :
    IsBoundary s.text s.wordLeftBoundary ↔ s.wordLeftClean = true := by
  rcases wordLeftBoundary_cases s with ⟨hZero, hClean⟩ | ⟨front, c, back, hBefore, hStart, hClean⟩
  · rw [hZero]
    exact iff_of_true ⟨[], s.text, rfl, rfl⟩ hClean
  · rw [hStart, hClean]
    constructor
    · intro hBoundary
      refine Classical.byContradiction fun hWide => ?_
      have hPos := c.utf8Size_pos
      refine not_isBoundary_inside (c := c) front (back ++ s.after) Nat.one_pos (by omega) ?_
      have hText : s.text = front ++ c :: (back ++ s.after) := by
        rw [h.split.1, hBefore, List.append_assoc]
        rfl
      rwa [← hText]
    · intro hOne
      have hSplit : s.before = (front ++ [c]) ++ back := by
        rw [hBefore, List.append_assoc]
        rfl
      have hBoundary := h.boundary_before hSplit
      rwa [byteLen_append, byteLen_cons, byteLen_nil, hOne] at hBoundary

theorem wordLeftBoundary_front (hClean : s.wordLeftClean = true) :
    ∃ front gone, s.before = front ++ gone ∧ byteLen front = s.wordLeftBoundary := by
  rcases wordLeftBoundary_cases s with ⟨hZero, -⟩ | ⟨front, c, back, hBefore, hStart, hOne⟩
  · exact ⟨[], s.before, rfl, hZero.symm⟩
  · refine ⟨front ++ [c], back, by rw [hBefore, List.append_assoc]; rfl, ?_⟩
    rw [hStart, byteLen_append, byteLen_cons, byteLen_nil, hOne.mp hClean]

/-! ## Visual moves -/

theorem Sound.cachedVisualLines (h : s.Sound m) (maxWidth : Nat) :
    (s.cachedVisualLines m maxWidth).2 = computeVisualLines m s.text maxWidth ∧
      (s.cachedVisualLines m maxWidth).1.Sound m ∧
      (s.cachedVisualLines m maxWidth).1.text = s.text := by
  obtain ⟨hLines, hCached, hText, hCursor, -⟩ := h.cache.cachedVisualLines maxWidth
  refine ⟨hLines, ⟨?_, hCached⟩, hText⟩
  rw [hText, hCursor]
  exact h.boundary

theorem offsetFrom_boundary (targetCol col : Nat) (text : List Char) :
    IsBoundary text (offsetFrom m targetCol col text) := by
  induction text generalizing col with
  | nil => exact ⟨[], [], rfl, rfl⟩
  | cons c rest ih =>
    simp only [offsetFrom]
    split
    · exact ⟨[], c :: rest, rfl, rfl⟩
    · obtain ⟨before, after, hRest, hLength⟩ := ih (col + m.width [c])
      exact ⟨c :: before, after, by rw [hRest]; rfl, by rw [byteLen_cons, hLength]⟩

theorem graphemeOffsetFrom_boundary (targetCol col : Nat) (graphemes : List (List Char)) :
    IsBoundary graphemes.flatten (graphemeOffsetFrom m targetCol col graphemes) := by
  induction graphemes generalizing col with
  | nil => exact ⟨[], [], rfl, rfl⟩
  | cons g rest ih =>
    simp only [graphemeOffsetFrom, List.flatten_cons]
    split
    · split
      · exact isBoundary_append g _
      · exact ⟨[], _, rfl, rfl⟩
    · obtain ⟨before, after, hRest, hLength⟩ := ih (col + m.width g)
      exact ⟨g ++ before, after, by rw [hRest, List.append_assoc],
        by rw [byteLen_append, hLength]⟩

theorem boundary_in_row {maxWidth offset : Nat} {vl : VisualLineInfo} (hWidth : ¬ maxWidth < 1)
    (hMem : vl ∈ computeVisualLines m text maxWidth)
    (hOffset : IsBoundary (lineText text vl.startByte vl.endByte) offset) :
    IsBoundary text (vl.startByte + offset) := by
  obtain ⟨gaps, hCovers, -⟩ :=
    covers_computeVisualLines (m := m) text (Nat.le_of_not_lt hWidth)
  obtain ⟨before, row, after, hText, hStart, hEnd⟩ := hCovers.row hMem
  rw [Nat.zero_add] at hStart
  rw [lineText, hEnd, hStart, hText, byteSlice_append] at hOffset
  obtain ⟨front, back, hRow, hLength⟩ := hOffset
  have hSplit : text = (before ++ front) ++ (back ++ after) := by
    rw [hText, show row = front ++ back from hRow]
    simp only [List.append_assoc]
  rw [hStart, ← hLength, ← byteLen_append, hSplit]
  exact isBoundary_append _ _

theorem Sound.onLine (h : s.Sound m) {maxWidth col : Nat} {target : VisualLineInfo}
    (hWidth : ¬ maxWidth < 1) (hMem : target ∈ computeVisualLines m s.text maxWidth) :
    (s.onLine m target col).Sound m :=
  h.withCursor (boundary_in_row hWidth hMem (offsetFrom_boundary _ _ _))

theorem Sound.cursorUp (h : s.Sound m) (maxWidth : Nat) : (s.cursorUp m maxWidth).Sound m := by
  obtain ⟨hLines, hSound, hText⟩ := h.cachedVisualLines maxWidth
  unfold InputBuffer.cursorUp
  split
  · exact h
  · rename_i hWidth
    dsimp only
    split
    · exact hSound
    split
    · exact hSound
    · rename_i target hTarget
      refine hSound.onLine hWidth ?_
      rw [hText, ← hLines]
      exact List.mem_of_getElem? hTarget

theorem Sound.cursorDown (h : s.Sound m) (maxWidth : Nat) : (s.cursorDown m maxWidth).Sound m := by
  obtain ⟨hLines, hSound, hText⟩ := h.cachedVisualLines maxWidth
  unfold InputBuffer.cursorDown
  split
  · exact h
  · rename_i hWidth
    dsimp only
    split
    · exact hSound
    split
    · exact hSound
    · rename_i target hTarget
      refine hSound.onLine hWidth ?_
      rw [hText, ← hLines]
      exact List.mem_of_getElem? hTarget

theorem Sound.ensureCursorVisible (h : s.Sound m) (maxWidth visibleHeight : Nat) :
    (s.ensureCursorVisible m maxWidth visibleHeight).Sound m := by
  obtain ⟨-, hSound, -⟩ := h.cachedVisualLines maxWidth
  unfold InputBuffer.ensureCursorVisible
  split
  · exact h.withScroll 0
  · dsimp only
    split
    · exact hSound.withScroll 0
    · exact hSound.withScroll _

theorem Sound.click (h : s.Sound m) (maxWidth visibleHeight row col : Nat) :
    (s.click m maxWidth visibleHeight row col).Sound m := by
  obtain ⟨hLines, hSound, hText⟩ := h.cachedVisualLines maxWidth
  unfold InputBuffer.click
  split
  · exact h.withCursor ⟨[], s.text, rfl, rfl⟩
  · rename_i hWidth
    dsimp only
    split
    · rename_i vl hTarget
      refine hSound.withCursor (boundary_in_row (m := m) hWidth ?_ ?_)
      · rw [hText, ← hLines]
        exact List.mem_of_getElem? hTarget
      · have hBoundary := graphemeOffsetFrom_boundary (m := m) (min col vl.displayWidth) 0
          (m.graphemes (lineText (s.cachedVisualLines m maxWidth).1.text vl.startByte vl.endByte))
        rwa [m.flatten] at hBoundary
    · exact hSound.withCursor ⟨_, [], (List.append_nil _).symm, rfl⟩

/-! ## Edits -/

/-- The text between the cursor and another offset is gone, and nothing else is. -/
def Removes (s : InputBuffer) (other : Nat) (s' : InputBuffer) : Prop :=
  ∃ front gone back, s.text = front ++ gone ++ back ∧ s'.text = front ++ back ∧
    byteLen front = min s.cursor other ∧ byteLen (front ++ gone) = max s.cursor other ∧
    s'.cursor = byteLen front

theorem Sound.removes_nothing (h : s.Sound m) (hText : s'.text = s.text)
    (hCursor : s'.cursor = s.cursor) : s.Removes s.cursor s' := by
  obtain ⟨hSplit, hLength⟩ := h.split
  refine ⟨s.before, [], s.after, ?_, ?_, ?_, ?_, ?_⟩
  · rw [List.append_nil, hSplit]
  · rw [hText, hSplit]
  · rw [Nat.min_self, hLength]
  · rw [List.append_nil, Nat.max_self, hLength]
  · rw [hCursor, hLength]

theorem Sound.insert (h : s.Sound m) {new : List Char} {cursor : Nat}
    (hCursor : cursor = s.cursor + byteLen new) :
    ∃ s', ((insertAt s.text s.cursor new).map fun text : List Char =>
        { s with text, cursor, generation := s.generation + 1 }) = some s' ∧ s'.Sound m := by
  obtain ⟨hSplit, hLength⟩ := h.split
  refine ⟨{ s with
      text := s.before ++ new ++ s.after
      cursor
      generation := s.generation + 1 }, ?_, h.edited rfl rfl ?_⟩
  · rw [hSplit, ← hLength, insertAt_append]
    rfl
  · show IsBoundary (s.before ++ new ++ s.after) cursor
    rw [hCursor, ← hLength, ← byteLen_append]
    exact isBoundary_append _ _

theorem Sound.insertCharAtCursor (h : s.Sound m) (c : Char) :
    ∃ s', s.insertCharAtCursor c = some s' ∧ s'.Sound m :=
  h.insert (by rw [byteLen_cons, byteLen_nil, Nat.add_zero])

theorem Sound.insertStrAtCursor (h : s.Sound m) (new : List Char) :
    ∃ s', s.insertStrAtCursor new = some s' ∧ s'.Sound m := by
  by_cases hEmpty : new = []
  · exact ⟨s, if_pos hEmpty, h⟩
  · obtain ⟨s', hInsert, hSound⟩ := h.insert rfl
    exact ⟨s', (if_neg hEmpty).trans hInsert, hSound⟩

/-- A deletion back to the edge of a piece before the cursor. -/
theorem Sound.drain_back (h : s.Sound m) (hBefore : s.before = front ++ gone) :
    ∃ s', s.drain (byteLen front) s.cursor = some s' ∧ s'.Sound m ∧
      s.Removes (byteLen front) s' := by
  obtain ⟨hText, hLength⟩ := h.split
  rw [hBefore] at hText
  have hEnd : s.cursor = byteLen front + byteLen gone := by
    rw [← hLength, hBefore, byteLen_append]
  refine ⟨{ s with
      text := front ++ s.after
      cursor := byteLen front
      generation := s.generation + 1 }, ?_, ?_, front, gone, s.after, hText, rfl, ?_, ?_, rfl⟩
  · rw [drain, hText, hEnd, drainBytes_append]
    rfl
  · exact h.edited rfl rfl (isBoundary_append front _)
  · rw [hEnd]
    omega
  · rw [hEnd, byteLen_append]
    omega

/-- A deletion up to the edge of a piece behind the cursor. -/
theorem Sound.drain_on (h : s.Sound m) (hAfter : s.after = gone ++ back) :
    ∃ s', s.drain s.cursor (s.cursor + byteLen gone) = some s' ∧ s'.Sound m ∧
      s.Removes (s.cursor + byteLen gone) s' := by
  obtain ⟨hText, hLength⟩ := h.split
  rw [hAfter, ← List.append_assoc] at hText
  refine ⟨{ s with
      text := s.before ++ back
      cursor := s.cursor
      generation := s.generation + 1 }, ?_, ?_, s.before, gone, back, hText, rfl, ?_, ?_, ?_⟩
  · rw [drain, hText, ← hLength, drainBytes_append]
    rfl
  · refine h.edited rfl rfl ?_
    rw [← hLength]
    exact isBoundary_append _ back
  · rw [hLength]
    omega
  · rw [byteLen_append, hLength]
    omega
  · exact hLength.symm

/-- The edit, with what it takes away up to an offset. -/
def Deletes (m : TextMetrics) (s : InputBuffer) (result : Option InputBuffer) (other : Nat) :
    Prop :=
  ∃ s', result = some s' ∧ s'.Sound m ∧ s.Removes other s'

theorem Sound.deletes_nothing (h : s.Sound m) : s.Deletes m (some s) s.cursor :=
  ⟨s, rfl, h, h.removes_nothing rfl rfl⟩

theorem Sound.deletes_back (h : s.Sound m) (hBefore : s.before = front ++ gone) :
    s.Deletes m (if s.cursor = 0 then some s else s.drain (byteLen front) s.cursor)
      (byteLen front) := by
  split
  · rename_i hZero
    have hEmpty := h.split.2
    rw [hZero, hBefore, byteLen_append] at hEmpty
    have hFront : byteLen front = s.cursor := by omega
    rw [hFront]
    exact h.deletes_nothing
  · exact h.drain_back hBefore

theorem Sound.backspace (h : s.Sound m) :
    s.Deletes m (s.backspaceAtCursor m) (s.cursorLeft m).cursor := by
  unfold backspaceAtCursor InputBuffer.cursorLeft
  cases hLast : lastGrapheme m s.before with
  | none =>
    have hFront := lastGrapheme_none hLast
    have hZero : s.cursor = 0 := by rw [← h.split.2, hFront, byteLen_nil]
    rw [if_pos hZero]
    exact h.deletes_nothing
  | some last =>
    obtain ⟨start, g⟩ := last
    obtain ⟨front, hBefore, rfl⟩ := lastGrapheme_some hLast
    exact h.deletes_back hBefore

theorem Sound.atEnd_iff (h : s.Sound m) : byteLen s.text ≤ s.cursor ↔ s.after = [] := by
  obtain ⟨hText, hLength⟩ := h.split
  rw [hText, byteLen_append, hLength, ← byteLen_eq_zero]
  omega

theorem Sound.deletes_on (h : s.Sound m) (hAfter : s.after = gone ++ back) :
    s.Deletes m (if byteLen s.text ≤ s.cursor then some s
      else s.drain s.cursor (s.cursor + byteLen gone)) (s.cursor + byteLen gone) := by
  split
  · rename_i hEnd
    have hEmpty := h.atEnd_iff.mp hEnd
    rw [hAfter] at hEmpty
    rw [(List.append_eq_nil_iff.mp hEmpty).1, byteLen_nil, Nat.add_zero]
    exact h.deletes_nothing
  · exact h.drain_on hAfter

theorem Sound.delete (h : s.Sound m) :
    s.Deletes m (s.deleteAtCursor m) (s.cursorRight m).cursor := by
  unfold deleteAtCursor InputBuffer.cursorRight
  cases hFirst : firstGrapheme m s.after with
  | none =>
    rw [if_pos (h.atEnd_iff.mpr (firstGrapheme_none hFirst))]
    exact h.deletes_nothing
  | some g =>
    obtain ⟨back, hAfter⟩ := firstGrapheme_some hFirst
    exact h.deletes_on hAfter

theorem Sound.deleteWordBackward (h : s.Sound m) (hClean : s.wordLeftClean = true) :
    s.Deletes m s.deleteWordBackward s.wordLeft.cursor := by
  obtain ⟨front, gone, hBefore, hStart⟩ := wordLeftBoundary_front hClean
  unfold InputBuffer.deleteWordBackward InputBuffer.wordLeft
  rw [← hStart]
  exact h.deletes_back hBefore

theorem Sound.deleteWordForward (h : s.Sound m) :
    s.Deletes m s.deleteWordForward s.wordRight.cursor := by
  obtain ⟨gone, back, hAfter, hBoundary⟩ := wordRightBoundary_eq s
  unfold InputBuffer.deleteWordForward InputBuffer.wordRight
  rw [hBoundary]
  exact h.deletes_on hAfter

theorem Sound.deleteToStart (h : s.Sound m) : s.Deletes m s.deleteToStart s.cursorHome.cursor := by
  have hBefore : s.before = [] ++ s.before := rfl
  exact h.deletes_back hBefore

theorem Sound.killLine (h : s.Sound m) : s.Deletes m s.killLine s.cursorEndLine.cursor := by
  obtain ⟨gone, back, hAfter, hRest⟩ := lineRest_eq s
  unfold InputBuffer.killLine InputBuffer.cursorEndLine
  dsimp only
  rw [hRest]
  split
  · rename_i hZero
    rw [hZero, Nat.add_zero]
    exact h.deletes_nothing
  · exact h.drain_on hAfter

theorem Sound.transposeChars (h : s.Sound m) :
    ∃ s', s.transposeChars m = some s' ∧ s'.Sound m := by
  obtain ⟨hText, hLength⟩ := h.split
  unfold InputBuffer.transposeChars
  split
  · exact ⟨s, rfl, h⟩
  split
  · exact ⟨s, rfl, h⟩
  · rename_i leftStart left hLast
    obtain ⟨front, hBefore, rfl⟩ := lastGrapheme_some hLast
    have hSlice : byteSlice s.text 0 (byteLen front) = some front := by
      have hFront := byteSlice_append [] front (left ++ s.after)
      rw [byteLen_nil, Nat.zero_add, List.nil_append, ← List.append_assoc, ← hBefore,
        ← hText] at hFront
      exact hFront
    rw [hSlice, Option.getD_some]
    dsimp only
    split
    · refine ⟨_, rfl, h.edited rfl rfl ?_⟩
      dsimp only
      rw [← byteLen_append, ← byteLen_append]
      exact isBoundary_append _ _
    · rename_i hFirst
      split
      · exact ⟨s, rfl, h⟩
      · rename_i prevStart prev hPrev
        obtain ⟨kept, hFront, rfl⟩ := lastGrapheme_some hPrev
        rw [hFront, splitAtByte_append]
        refine ⟨_, rfl, h.edited rfl rfl ⟨kept ++ left ++ prev, [], ?_, ?_⟩⟩
        · rw [List.append_nil]
        · rw [hText, firstGrapheme_none hFirst, List.append_nil, hBefore, hFront]
          simp only [byteLen_append]
          omega

end InputBuffer

/-! ## Runs -/

/-- The move that goes where a deletion stops. -/
def InputOp.counterpart : InputOp → Option InputOp
  | .backspace => some .cursorLeft
  | .delete => some .cursorRight
  | .deleteWordBackward => some .wordLeft
  | .deleteWordForward => some .wordRight
  | .deleteToStart => some .cursorHome
  | .killLine => some .cursorEndLine
  | _ => none

/-- The operation does not panic, leaves the cursor on a boundary of the text, and removes what is
between the cursor and where its move goes. -/
def StepSafe (m : TextMetrics) (u : UnicodeTables) (w : CharWidths) (s : InputBuffer)
    (op : InputOp) : Prop :=
  ∃ s', s.apply m u w op = some s' ∧ s'.cursor ≤ byteLen s'.text ∧ IsBoundary s'.text s'.cursor ∧
    ∀ move, op.counterpart = some move →
      ∃ moved, s.apply m u w move = some moved ∧ s.Removes moved.cursor s'

/-- Every operation of the run is safe where it is made. -/
def RunSafe (m : TextMetrics) (u : UnicodeTables) (w : CharWidths) :
    InputBuffer → List InputOp → Prop
  | _, [] => True
  | s, op :: rest =>
      StepSafe m u w s op ∧ ∀ s', s.apply m u w op = some s' → RunSafe m u w s' rest

/-- No operation goes by a word whose preceding whitespace is longer than a byte. -/
def InputBuffer.cleanFor (s : InputBuffer) : InputOp → Bool
  | .wordLeft => s.wordLeftClean
  | .deleteWordBackward => s.wordLeftClean
  | _ => true

def runClean (m : TextMetrics) (u : UnicodeTables) (w : CharWidths) :
    InputBuffer → List InputOp → Bool
  | _, [] => true
  | s, op :: rest =>
      s.cleanFor op && (s.apply m u w op).all fun s' => runClean m u w s' rest

namespace InputBuffer

/-- An operation that leaves a sound buffer is safe, and so is what comes after it. -/
def Continues (m : TextMetrics) (u : UnicodeTables) (w : CharWidths) (s : InputBuffer)
    (op : InputOp) : Prop :=
  StepSafe m u w s op ∧ ∀ s', s.apply m u w op = some s' → s'.Sound m

theorem Sound.continues (h : s'.Sound m) (hApply : s.apply m u w op = some s')
    (hMove : op.counterpart = none) : s.Continues m u w op := by
  refine ⟨⟨s', hApply, h.boundary.le, h.boundary, fun move hSome => ?_⟩, fun t hNext => ?_⟩
  · rw [hMove] at hSome
    cases hSome
  · rw [hApply] at hNext
    cases hNext
    exact h

theorem Deletes.continues {move : InputOp} {moved : InputBuffer}
    (h : s.Deletes m (s.apply m u w op) moved.cursor) (hMove : op.counterpart = some move)
    (hMoved : s.apply m u w move = some moved) : s.Continues m u w op := by
  obtain ⟨s', hApply, hSound, hRemoves⟩ := h
  refine ⟨⟨s', hApply, hSound.boundary.le, hSound.boundary, fun other hSome => ?_⟩,
    fun t hNext => ?_⟩
  · rw [hMove] at hSome
    cases hSome
    exact ⟨moved, hMoved, hRemoves⟩
  · rw [hApply] at hNext
    cases hNext
    exact hSound

theorem Sound.step (h : s.Sound m) (hClean : s.cleanFor op = true) : s.Continues m u w op := by
  cases op with
  | clear =>
    have hClear : s.clear.Sound m := by
      unfold InputBuffer.clear
      split
      · exact h
      · exact h.edited rfl rfl ⟨[], [], rfl, rfl⟩
    exact hClear.continues rfl rfl
  | insertChar c =>
    obtain ⟨s', hApply, hSound⟩ := h.insertCharAtCursor c
    exact hSound.continues hApply rfl
  | paste data =>
    obtain ⟨s', hApply, hSound⟩ := h.insertStrAtCursor (sanitizePastedText u w data)
    exact hSound.continues hApply rfl
  | backspace => exact h.backspace.continues rfl rfl
  | delete => exact h.delete.continues rfl rfl
  | deleteWordBackward => exact (h.deleteWordBackward hClean).continues rfl rfl
  | deleteWordForward => exact h.deleteWordForward.continues rfl rfl
  | deleteToStart => exact h.deleteToStart.continues rfl rfl
  | killLine => exact h.killLine.continues rfl rfl
  | transposeChars =>
    obtain ⟨s', hApply, hSound⟩ := h.transposeChars
    exact hSound.continues hApply rfl
  | cursorLeft => exact h.cursorLeft.continues rfl rfl
  | cursorRight => exact h.cursorRight.continues rfl rfl
  | cursorHome => exact h.cursorHome.continues rfl rfl
  | cursorEnd => exact h.cursorEnd.continues rfl rfl
  | wordLeft => exact (h.withCursor (h.wordLeft_iff.mpr hClean)).continues rfl rfl
  | wordRight => exact h.wordRight.continues rfl rfl
  | cursorHomeLine => exact h.cursorHomeLine.continues rfl rfl
  | cursorEndLine => exact h.cursorEndLine.continues rfl rfl
  | cursorUp maxWidth => exact (h.cursorUp maxWidth).continues rfl rfl
  | cursorDown maxWidth => exact (h.cursorDown maxWidth).continues rfl rfl
  | ensureVisible maxWidth visibleHeight =>
    exact (h.ensureCursorVisible maxWidth visibleHeight).continues rfl rfl
  | click maxWidth visibleHeight row col =>
    exact (h.click maxWidth visibleHeight row col).continues rfl rfl

/-- A word whose preceding whitespace is longer than a byte takes the cursor off the boundaries. -/
theorem Sound.clean_of_safe (h : s.Sound m) (hSafe : StepSafe m u w s op) :
    s.cleanFor op = true := by
  obtain ⟨s', hApply, -, hBoundary, -⟩ := hSafe
  cases op with
  | wordLeft =>
    cases hApply
    exact h.wordLeft_iff.mp hBoundary
  | deleteWordBackward =>
    show s.wordLeftClean = true
    by_cases hZero : s.cursor = 0
    · have hEmpty := h.split.2
      rw [hZero] at hEmpty
      rw [wordLeftClean, byteLen_eq_zero.mp hEmpty]
      rfl
    · refine h.wordLeft_iff.mp (Classical.byContradiction fun hNot => ?_)
      rw [apply, InputBuffer.deleteWordBackward, if_neg hZero, drain,
        drainBytes_of_not_boundary hNot] at hApply
      cases hApply
  | _ => rfl

end InputBuffer

/-- In a run from an empty buffer every operation is safe if and only if no operation goes by a
word whose preceding whitespace is longer than a byte. -/
theorem input_runSafe_iff (m : TextMetrics) (u : UnicodeTables) (w : CharWidths)
    (ops : List InputOp) : RunSafe m u w {} ops ↔ runClean m u w {} ops = true := by
  suffices hFrom : ∀ s : InputBuffer, s.Sound m →
      (RunSafe m u w s ops ↔ runClean m u w s ops = true) from
    hFrom {} InputBuffer.Sound.initial
  induction ops with
  | nil => exact fun s h => iff_of_true trivial rfl
  | cons op rest ih =>
    intro s h
    rw [RunSafe, runClean, Bool.and_eq_true]
    constructor
    · rintro ⟨hSafe, hRest⟩
      have hClean := h.clean_of_safe hSafe
      refine ⟨hClean, ?_⟩
      cases hApply : s.apply m u w op with
      | none => rfl
      | some s' => exact (ih s' ((h.step hClean).2 s' hApply)).mp (hRest s' hApply)
    · rintro ⟨hClean, hRest⟩
      obtain ⟨hSafe, hSound⟩ := h.step (u := u) (w := w) hClean
      refine ⟨hSafe, fun s' hApply => (ih s' (hSound s' hApply)).mpr ?_⟩
      rw [hApply] at hRest
      exact hRest

/-- Each character is a grapheme and is drawn in one column. -/
def sampleMetrics : TextMetrics where
  graphemes text := text.map fun c => [c]
  width text := text.length
  flatten text := by
    induction text with
    | nil => rfl
    | cons c rest ih => rw [List.map_cons, List.flatten_cons, ih]; rfl
  nonempty := by
    intro text g hMem
    obtain ⟨c, -, rfl⟩ := List.mem_map.mp hMem
    exact List.cons_ne_nil c []

def sampleWidths : CharWidths where
  width _ := some 1
  ascii _ _ _ := rfl

/-- A word behind a no-break space, which is two bytes long. -/
def wideSpaceOps : List InputOp :=
  [.insertChar 'a', .insertChar '\u00a0', .insertChar 'b', .wordLeft, .insertChar 'c']

def typedBuffer (text : List Char) : InputBuffer :=
  { text, cursor := byteLen text, generation := text.length }

/-- The move to the start of the word puts the cursor inside the space. -/
theorem wideSpace_not_safe :
    ¬ ∀ ops, RunSafe sampleMetrics sampleTables sampleWidths {} ops := by
  intro h
  obtain ⟨-, hFirst⟩ := h wideSpaceOps
  obtain ⟨-, hSecond⟩ := hFirst (typedBuffer ['a']) rfl
  obtain ⟨-, hThird⟩ := hSecond (typedBuffer ['a', '\u00a0']) rfl
  obtain ⟨⟨s', hApply, -, hBoundary, -⟩, -⟩ := hThird (typedBuffer ['a', '\u00a0', 'b']) rfl
  obtain rfl := Option.some.inj hApply
  exact splitAtByte_eq_none.mp (by decide) hBoundary

end Choreographr.Tui
