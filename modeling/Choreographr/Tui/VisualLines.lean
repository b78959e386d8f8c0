import Choreographr.Lib.ByteOffset

/-!
# Visual lines of the input

The text of an input is wrapped between words for display. A visual line is a range of byte
offsets; the whitespace at which a line is wrapped belongs to neither side. How text is cut into
graphemes and how wide it is drawn belongs to crates of their own and is a parameter.
-/

namespace Choreographr.Tui

open Lib

structure TextMetrics where
  /-- `str::graphemes(true)` -/
  graphemes : List Char → List (List Char)
  /-- `UnicodeWidthStr::width` -/
  width : List Char → Nat
  flatten : ∀ text, (graphemes text).flatten = text
  nonempty : ∀ text, ∀ g ∈ graphemes text, g ≠ []

variable (m : TextMetrics)

structure VisualLineInfo where
  startByte : Nat
  endByte : Nat
  displayWidth : Nat
deriving DecidableEq

/-! ## Wrapping -/

/-- `u8::is_ascii_whitespace` -/
def isAsciiWhitespace (c : Char) : Bool :=
  c == ' ' || c == '\t' || c == '\n' || c == '\x0c' || c == '\r'

/-- `str::split('\n')` -/
def logicalLines : List Char → List (List Char)
  | [] => [[]]
  | c :: rest =>
      if c = '\n' then [] :: logicalLines rest
      else
        match logicalLines rest with
        | [] => [[c]]
        | line :: lines => (c :: line) :: lines

/-- A word and the whitespace before it. -/
structure Word where
  gap : List Char
  word : List Char
deriving DecidableEq

/-- The words of a logical line, and the whitespace behind the last one. -/
def splitWords (logical : List Char) : List Word × List Char :=
  let gap := logical.takeWhile isAsciiWhitespace
  match _hLine : logical.dropWhile isAsciiWhitespace with
  | [] => ([], gap)
  | c :: rest =>
      let word := (c :: rest).takeWhile fun d => !isAsciiWhitespace d
      let words := splitWords (rest.dropWhile fun d => !isAsciiWhitespace d)
      ({ gap, word } :: words.1, words.2)
termination_by logical.length
decreasing_by
  have hLine := (List.dropWhile_suffix (l := logical) isAsciiWhitespace).length_le
  have hRest := (List.dropWhile_suffix (l := rest) fun d => !isAsciiWhitespace d).length_le
  rw [_hLine, List.length_cons] at hLine
  omega

structure Wrapping where
  lines : List VisualLineInfo
  lineStartByte : Nat
  lineWidth : Nat
  lastWordEndByte : Nat

/-- One word of the greedy wrap. -/
def placeWord (maxWidth : Nat) (s : Wrapping) (w : Word) : Wrapping :=
  let start := s.lastWordEndByte + byteLen w.gap
  let stop := start + byteLen w.word
  let wordWidth := m.width w.word
  let spaceNeeded := m.width w.gap + wordWidth
  if 0 < s.lineWidth ∧ maxWidth < s.lineWidth + spaceNeeded then
    { lines := s.lines ++ [⟨s.lineStartByte, s.lastWordEndByte, s.lineWidth⟩]
      lineStartByte := start
      lineWidth := wordWidth
      lastWordEndByte := stop }
  else { s with lineWidth := s.lineWidth + spaceNeeded, lastWordEndByte := stop }

/-- The visual lines of one logical line, which stands at an offset. -/
def wrapLogical (maxWidth offset : Nat) (logical : List Char) : List VisualLineInfo :=
  if logical = [] then [⟨offset, offset, 0⟩]
  else
    let (words, trailing) := splitWords logical
    if words.isEmpty then [⟨offset, offset + byteLen logical, m.width logical⟩]
    else
      let s := words.foldl (placeWord m maxWidth) ⟨[], offset, 0, offset⟩
      s.lines ++
        [⟨s.lineStartByte, s.lastWordEndByte + byteLen trailing, s.lineWidth + m.width trailing⟩]

def wrapLines (maxWidth : Nat) : Nat → List (List Char) → List VisualLineInfo
  | _, [] => []
  | offset, logical :: rest =>
      wrapLogical m maxWidth offset logical ++
        wrapLines maxWidth (offset + byteLen logical + 1) rest

def computeVisualLines (text : List Char) (maxWidth : Nat) : List VisualLineInfo :=
  if maxWidth = 0 then [⟨0, 0, 0⟩]
  else
    let lines := wrapLines m maxWidth 0 (logicalLines text)
    if lines.isEmpty then [⟨0, 0, 0⟩] else lines

/-! ## Columns -/

/-- The text of a line, up to an offset. -/
def lineText (text : List Char) (start stop : Nat) : List Char :=
  (byteSlice text start stop).getD []

/-- The row and the column of the cursor, cut to 16 bits. -/
def findCursorPos (text : List Char) (cursor : Nat) (lines : List VisualLineInfo) :
    UInt16 × UInt16 :=
  match lines.findIdx? fun vl => vl.startByte ≤ cursor && cursor ≤ vl.endByte with
  | some i =>
      let vl := lines.getD i ⟨0, 0, 0⟩
      let text := lineText text vl.startByte (min cursor vl.endByte)
      (i.toUInt16, (m.width text).toUInt16)
  | none =>
      match lines.getLast? with
      | none => (0, 0)
      | some last =>
          let text := lineText text last.startByte last.endByte
          ((lines.length - 1).toUInt16, (m.width text).toUInt16)

/-- The loop of `byte_offset_at_column`, from a column. -/
def offsetFrom (targetCol : Nat) : Nat → List Char → Nat
  | _, [] => 0
  | col, c :: rest =>
      if targetCol < col + m.width [c] then 0
      else c.utf8Size + offsetFrom targetCol (col + m.width [c]) rest

def byteOffsetAtColumn (s : List Char) (targetCol : Nat) : Nat := offsetFrom m targetCol 0 s

/-- The loop of `grapheme_offset_at_column`, from a column. -/
def graphemeOffsetFrom (targetCol : Nat) : Nat → List (List Char) → Nat
  | _, [] => 0
  | col, g :: rest =>
      if targetCol < col + m.width g then
        if 2 ≤ m.width g ∧ col < targetCol then byteLen g else 0
      else byteLen g + graphemeOffsetFrom targetCol (col + m.width g) rest

def graphemeOffsetAtColumn (s : List Char) (targetCol : Nat) : Nat :=
  graphemeOffsetFrom m targetCol 0 (m.graphemes s)

end Choreographr.Tui
