import Mathlib.Data.List.DropRight
import Choreographr.Lib.LastMatch
import Choreographr.Session.Types
import Choreographr.Tui.TextFilter
import Choreographr.Tui.VisualLines

/-!
# The input buffer

The text of an input field with its cursor, a byte offset. An operation is `none` where it panics:
where text is inserted, removed or cut at an offset that is not a character boundary.
-/

namespace Choreographr.Tui

open Lib Tools Session

structure InputBuffer where
  text : List Char := []
  cursor : Nat := 0
  scrollOffset : Nat := 0
  generation : Nat := 0
  linesCache : Option (Nat × Nat × List VisualLineInfo) := none

variable (m : TextMetrics)

/-! ## Pieces of the text -/

/-- The last grapheme, with its offset. -/
def lastGrapheme (text : List Char) : Option (Nat × List Char) :=
  (m.graphemes text).getLast?.map fun g => (byteLen (m.graphemes text).dropLast.flatten, g)

/-- The first grapheme. -/
def firstGrapheme (text : List Char) : Option (List Char) := (m.graphemes text).head?

/-- `str::rfind`, as a byte offset. -/
def rfindByte (p : Char → Bool) (text : List Char) : Option Nat :=
  (rposition p text).map fun i => byteLen (text.take i)

namespace InputBuffer

/-- `text.get(..cursor).unwrap_or("")` -/
def before (s : InputBuffer) : List Char := ((splitAtByte s.cursor s.text).map Prod.fst).getD []

/-- `text.get(cursor..).unwrap_or("")` -/
def after (s : InputBuffer) : List Char := ((splitAtByte s.cursor s.text).map Prod.snd).getD []

def clear (s : InputBuffer) : InputBuffer :=
  if s.text = [] ∧ s.cursor = 0 ∧ s.scrollOffset = 0 then s
  else { s with text := [], cursor := 0, scrollOffset := 0, generation := s.generation + 1 }

/-! ## Moves -/

def cursorLeft (s : InputBuffer) : InputBuffer :=
  match lastGrapheme m s.before with
  | some (start, _) => { s with cursor := start }
  | none => s

def cursorRight (s : InputBuffer) : InputBuffer :=
  match firstGrapheme m s.after with
  | some grapheme => { s with cursor := s.cursor + byteLen grapheme }
  | none => s

def cursorHome (s : InputBuffer) : InputBuffer := { s with cursor := 0 }

def cursorEnd (s : InputBuffer) : InputBuffer := { s with cursor := byteLen s.text }

def wordLeftBoundary (s : InputBuffer) : Nat :=
  let trimmed := s.before.rdropWhile isWhitespace
  if trimmed = [] then 0 else ((rfindByte isWhitespace trimmed).map (· + 1)).getD 0

def wordRightBoundary (s : InputBuffer) : Nat :=
  let text := s.after
  if text = [] then s.cursor
  else
    -- The loop over a word takes the whitespace that ends it as well.
    let behindWord :=
      if (text.head?.all fun c => !isWhitespace c) = true then
        (text.dropWhile fun c => !isWhitespace c).drop 1
      else text
    let next := behindWord.dropWhile isWhitespace
    s.cursor + (if next = [] then byteLen text else byteLen text - byteLen next)

def wordLeft (s : InputBuffer) : InputBuffer := { s with cursor := s.wordLeftBoundary }

def wordRight (s : InputBuffer) : InputBuffer := { s with cursor := s.wordRightBoundary }

def cursorHomeLine (s : InputBuffer) : InputBuffer :=
  { s with cursor := ((rfindByte (· == '\n') s.before).map (· + 1)).getD 0 }

/-- The bytes up to the end of the logical line. -/
def lineRest (s : InputBuffer) : Nat := byteLen (s.after.takeWhile fun c => c != '\n')

def cursorEndLine (s : InputBuffer) : InputBuffer := { s with cursor := s.cursor + s.lineRest }

/-! ## Edits -/

def insertCharAtCursor (s : InputBuffer) (c : Char) : Option InputBuffer :=
  (insertAt s.text s.cursor [c]).map fun text =>
    { s with text, cursor := s.cursor + c.utf8Size, generation := s.generation + 1 }

def insertStrAtCursor (s : InputBuffer) (new : List Char) : Option InputBuffer :=
  if new = [] then some s
  else
    (insertAt s.text s.cursor new).map fun text =>
      { s with text, cursor := s.cursor + byteLen new, generation := s.generation + 1 }

/-- `text.drain(start..stop)` with the cursor put at the start. -/
def drain (s : InputBuffer) (start stop : Nat) : Option InputBuffer :=
  (drainBytes s.text start stop).map fun text =>
    { s with text, cursor := start, generation := s.generation + 1 }

def backspaceAtCursor (s : InputBuffer) : Option InputBuffer :=
  if s.cursor = 0 then some s
  else
    match lastGrapheme m s.before with
    | some (start, _) => s.drain start s.cursor
    | none => some { s with generation := s.generation + 1 }

def deleteAtCursor (s : InputBuffer) : Option InputBuffer :=
  if byteLen s.text ≤ s.cursor then some s
  else
    match firstGrapheme m s.after with
    | some grapheme => s.drain s.cursor (s.cursor + byteLen grapheme)
    | none => some { s with generation := s.generation + 1 }

def deleteWordBackward (s : InputBuffer) : Option InputBuffer :=
  if s.cursor = 0 then some s else s.drain s.wordLeftBoundary s.cursor

def deleteWordForward (s : InputBuffer) : Option InputBuffer :=
  if byteLen s.text ≤ s.cursor then some s else s.drain s.cursor s.wordRightBoundary

def deleteToStart (s : InputBuffer) : Option InputBuffer :=
  if s.cursor = 0 then some s else s.drain 0 s.cursor

def killLine (s : InputBuffer) : Option InputBuffer :=
  if s.lineRest = 0 then some s else s.drain s.cursor (s.cursor + s.lineRest)

def transposeChars (s : InputBuffer) : Option InputBuffer :=
  if s.cursor = 0 then some s
  else
    match lastGrapheme m s.before with
    | none => some s
    | some (leftStart, left) =>
        let new := (byteSlice s.text 0 leftStart).getD []
        match firstGrapheme m s.after with
        | some right =>
            let tail := ((splitAtByte (s.cursor + byteLen right) s.text).map Prod.snd).getD []
            some { s with
              text := new ++ right ++ left ++ tail
              cursor := leftStart + byteLen right + byteLen left
              generation := s.generation + 1 }
        | none =>
            match lastGrapheme m new with
            | none => some s
            | some (prevStart, prev) =>
                (splitAtByte prevStart new).map fun kept =>
                  { s with
                    text := kept.1 ++ left ++ prev
                    cursor := byteLen s.text
                    generation := s.generation + 1 }

/-! ## Visual moves -/

/-- `cached_visual_lines`: the buffer with its cache brought up to date, and the lines. -/
def cachedVisualLines (s : InputBuffer) (maxWidth : Nat) : InputBuffer × List VisualLineInfo :=
  let fresh := computeVisualLines m s.text maxWidth
  match s.linesCache with
  | none => ({ s with linesCache := some (s.generation, maxWidth, fresh) }, fresh)
  | some (generation, width, lines) =>
      if generation ≠ s.generation ∨ width ≠ maxWidth then
        ({ s with linesCache := some (s.generation, maxWidth, fresh) }, fresh)
      else (s, lines)

/-- The cursor on a visual line, at a column or before it. -/
def onLine (s : InputBuffer) (target : VisualLineInfo) (col : Nat) : InputBuffer :=
  let targetText := lineText s.text target.startByte target.endByte
  let targetCol := min col target.displayWidth
  { s with cursor := target.startByte + byteOffsetAtColumn m targetText targetCol }

def cursorUp (s : InputBuffer) (maxWidth : Nat) : InputBuffer :=
  if maxWidth < 1 then s
  else
    let (s, lines) := s.cachedVisualLines m maxWidth
    let (currentLine, col) := findCursorPos m s.text s.cursor lines
    if currentLine = 0 then s
    else
      match lines[currentLine.toNat - 1]? with
      | none => s
      | some target => s.onLine m target col.toNat

def cursorDown (s : InputBuffer) (maxWidth : Nat) : InputBuffer :=
  if maxWidth < 1 then s
  else
    let (s, lines) := s.cachedVisualLines m maxWidth
    let (currentLine, col) := findCursorPos m s.text s.cursor lines
    if lines.length.toUInt16 ≤ currentLine + 1 then s
    else
      match lines[currentLine.toNat + 1]? with
      | none => s
      | some target => s.onLine m target col.toNat

def ensureCursorVisible (s : InputBuffer) (maxWidth visibleHeight : Nat) : InputBuffer :=
  if maxWidth < 1 ∨ visibleHeight = 0 then { s with scrollOffset := 0 }
  else
    let (s, lines) := s.cachedVisualLines m maxWidth
    if lines.length ≤ visibleHeight then { s with scrollOffset := 0 }
    else
      let maxScroll := lines.length - visibleHeight
      let cursorRow := (findCursorPos m s.text s.cursor lines).1.toNat
      let scroll := if cursorRow < s.scrollOffset then cursorRow else s.scrollOffset
      let scroll :=
        if scroll + visibleHeight ≤ cursorRow then cursorRow + 1 - visibleHeight else scroll
      { s with scrollOffset := min scroll maxScroll }

/-- The cursor is put at the offset that `byte_offset_at_click` finds. -/
def click (s : InputBuffer) (maxWidth visibleHeight row col : Nat) : InputBuffer :=
  if maxWidth < 1 then { s with cursor := 0 }
  else
    let (s, lines) := s.cachedVisualLines m maxWidth
    let visibleCount := min (max visibleHeight 1) lines.length
    let offset := min s.scrollOffset (lines.length - visibleCount)
    match lines[offset + row]? with
    | some vl =>
        let text := lineText s.text vl.startByte vl.endByte
        let targetCol := min col vl.displayWidth
        { s with cursor := vl.startByte + graphemeOffsetAtColumn m text targetCol }
    | none => { s with cursor := byteLen s.text }

end InputBuffer

/-! ## Operations -/

inductive InputOp where
  | clear
  | insertChar (c : Char)
  /-- A paste: the text goes through `sanitize_pasted_text`. -/
  | paste (data : List Char)
  | backspace | delete | deleteWordBackward | deleteWordForward | deleteToStart | killLine
  | transposeChars
  | cursorLeft | cursorRight | cursorHome | cursorEnd | wordLeft | wordRight
  | cursorHomeLine | cursorEndLine
  | cursorUp (maxWidth : Nat)
  | cursorDown (maxWidth : Nat)
  | ensureVisible (maxWidth visibleHeight : Nat)
  | click (maxWidth visibleHeight row col : Nat)

variable (u : UnicodeTables) (w : CharWidths)

def InputBuffer.apply (s : InputBuffer) : InputOp → Option InputBuffer
  | .clear => some s.clear
  | .insertChar c => s.insertCharAtCursor c
  | .paste data => s.insertStrAtCursor (sanitizePastedText u w data)
  | .backspace => s.backspaceAtCursor m
  | .delete => s.deleteAtCursor m
  | .deleteWordBackward => s.deleteWordBackward
  | .deleteWordForward => s.deleteWordForward
  | .deleteToStart => s.deleteToStart
  | .killLine => s.killLine
  | .transposeChars => s.transposeChars m
  | .cursorLeft => some (s.cursorLeft m)
  | .cursorRight => some (s.cursorRight m)
  | .cursorHome => some s.cursorHome
  | .cursorEnd => some s.cursorEnd
  | .wordLeft => some s.wordLeft
  | .wordRight => some s.wordRight
  | .cursorHomeLine => some s.cursorHomeLine
  | .cursorEndLine => some s.cursorEndLine
  | .cursorUp maxWidth => some (s.cursorUp m maxWidth)
  | .cursorDown maxWidth => some (s.cursorDown m maxWidth)
  | .ensureVisible maxWidth visibleHeight => some (s.ensureCursorVisible m maxWidth visibleHeight)
  | .click maxWidth visibleHeight row col => some (s.click m maxWidth visibleHeight row col)

/-- The operations one after the other. -/
def InputBuffer.applyAll (s : InputBuffer) : List InputOp → Option InputBuffer
  | [] => some s
  | op :: rest => (s.apply m u w op).bind fun s' => s'.applyAll rest

end Choreographr.Tui
