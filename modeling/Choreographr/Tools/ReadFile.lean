import Choreographr.Lib.Utf8
import Choreographr.Tools.Sanitize
import Choreographr.Tools.Proofs.TextStream

/-!
# The file reading tool

`read_file` returns a window of the lines of a text file, numbered and escaped, up to the shared
byte budget. When the window or the budget leaves lines out, a marker names the line to continue
from. The path is resolved outside; the model has the label and the display form of the result.
-/

namespace Choreographr.Tools

open Lib Session

variable (u : UnicodeTables)

/-! ## The output budget -/

structure OutputBudget where
  maxBytes : Nat
  shownBytes : Nat := 0
  truncated : Bool := false

/-- `push_line`: the output is the list of its lines. -/
def OutputBudget.pushLine (b : OutputBudget) (out : List (List Char)) (line : List Char) :
    OutputBudget × List (List Char) × Bool :=
  let displayLen := byteLen line + 1
  if b.truncated || decide (b.maxBytes < b.shownBytes + displayLen) then
    ({ b with truncated := true }, out, false)
  else ({ b with shownBytes := b.shownBytes + displayLen }, out ++ [line], true)

/-! ## One line -/

/-- A file as `read_file` finds it. -/
structure TextFile where
  /-- `Path::display` of the resolved path. -/
  path : String
  /-- The sanitized label of the header. -/
  label : List Char
  content : Bytes

def binaryError (path : String) (offset : Nat) : String :=
  "'" ++ path ++ "' appears to be a binary file (NUL byte at offset " ++ toString offset ++ ")"

def notUtf8Error (path : String) (offset : Nat) : String :=
  "'" ++ path ++ "' is not valid UTF-8 text (invalid byte sequence at offset " ++
    toString offset ++ ")"

/-- `str::strip_suffix` of one character, if it is there. -/
def stripLast (c : Char) (text : List Char) : List Char :=
  if text.getLast? = some c then text.dropLast else text

def lineTruncatedMarker : List Char := "\n...[line truncated: exceeds 64 KiB]".toList

def displayLine (lineNumber : Nat) (complete : Bool) (lineStr : List Char) : List Char :=
  Nat.toDigits 10 lineNumber ++ " | ".toList ++
    sanitizeContent u (stripLast '\r' (stripLast '\n' lineStr)) ++
    (if complete then [] else lineTruncatedMarker)

def renderStreamedLine (line : StreamedLine) (path : String) : Except String (List Char) :=
  match line.content.findIdx? (· == 0) with
  | some pos => .error (binaryError path (line.startOffset + pos))
  | none =>
      let (lineStr, left) := decodeText line.content
      if left = [] then .ok (displayLine u line.lineNumber line.complete lineStr)
      -- The display cap has cut a character.
      else if !line.complete && isCutChar left then
        .ok (displayLine u line.lineNumber line.complete lineStr)
      else
        .error (notUtf8Error path (line.startOffset + (line.content.length - left.length)))

def openTextReader (file : TextFile) (window : Nat → Nat) : Except String BufReader :=
  let reader : BufReader := { rest := file.content, window }
  let head := reader.available
  match head.findIdx? (· == 0) with
  | some pos =>
      .error (binaryError file.path pos ++ "; read_file is for UTF-8 text files")
  | none =>
      let left := (decodeText head).2
      if left ≠ [] ∧ isCutChar left = false then
        .error (notUtf8Error file.path (head.length - left.length))
      else .ok reader.filled

/-! ## The tool -/

def maxReadFileLines : Nat := 2000

structure ReadFileArgs where
  path : String
  startLine : Nat := 1
  maxLines : Nat := maxReadFileLines

structure ReadState where
  budget : OutputBudget := { maxBytes := maxToolOutputBytes }
  out : List (List Char) := []
  linesShown : Nat := 0

/-- The loop over the lines of the stream. -/
def readLines (path : String) (start max : Nat) :
    List StreamedLine → ReadState → Except String ReadState
  | [], s => .ok s
  | line :: rest, s =>
      let inWindow := start ≤ line.lineNumber ∧ s.linesShown < max
      if ¬ inWindow ∨ s.budget.truncated = true then readLines path start max rest s
      else
        match renderStreamedLine u line path with
        | .error e => .error e
        | .ok display =>
            let (budget, out, fits) := s.budget.pushLine s.out display
            let linesShown := if fits then s.linesShown + 1 else s.linesShown
            readLines path start max rest { budget, out, linesShown }

/-- The marker behind a view that is not the rest of the file. -/
inductive ReadMarker where
  | truncated (returnedBytes totalBytes linesShown totalLines resume : Nat)
  | moreLines (linesShown totalLines resume : Nat)
deriving DecidableEq

/-- The line to continue from. -/
def ReadMarker.resume : ReadMarker → Nat
  | .truncated _ _ _ _ resume => resume
  | .moreLines _ _ resume => resume

def ReadMarker.text : ReadMarker → List Char
  | .truncated returnedBytes totalBytes linesShown totalLines resume =>
      "\n...[truncated: showing ".toList ++ Nat.toDigits 10 returnedBytes ++ " of ".toList ++
        Nat.toDigits 10 totalBytes ++ " bytes (".toList ++ Nat.toDigits 10 linesShown ++
        " of ".toList ++ Nat.toDigits 10 totalLines ++
        " lines) — continue with start_line=".toList ++ Nat.toDigits 10 resume ++ "]".toList
  | .moreLines linesShown totalLines resume =>
      "\n...[more lines follow: showing ".toList ++ Nat.toDigits 10 linesShown ++ " of ".toList ++
        Nat.toDigits 10 totalLines ++ " lines — continue with start_line=".toList ++
        Nat.toDigits 10 resume ++ "]".toList

/-- The parts of a result. -/
structure ReadView where
  header : List Char
  lines : List (List Char)
  marker : Option ReadMarker

def ReadView.body (v : ReadView) : List Char := v.lines.flatMap fun line => line ++ ['\n']

/-- The text that the tool returns. -/
def ReadView.text (v : ReadView) : List Char :=
  v.header ++ v.body ++ (v.marker.map ReadMarker.text).getD []

def header (label lines : List Char) : List Char :=
  "path: ".toList ++ label ++ "\nlines: ".toList ++ lines ++ "\n\n".toList

/-- The result of the loop, with the totals. -/
def readView (file : TextFile) (start max totalLines totalBytes : Nat) (s : ReadState) : ReadView :=
  let requestedEnd := min totalLines (start + (max - 1))
  let shownLines :=
    if s.budget.truncated = true ∧ s.linesShown = 0 then
      "none of ".toList ++ Nat.toDigits 10 totalLines ++
        " (first line exceeds output budget)".toList
    else
      let shownEnd := if s.budget.truncated then start + s.linesShown - 1 else requestedEnd
      Nat.toDigits 10 start ++ "-".toList ++ Nat.toDigits 10 shownEnd ++ " of ".toList ++
        Nat.toDigits 10 totalLines
  let header := header file.label shownLines
  let marker :=
    if s.budget.truncated then
      some (.truncated (s.budget.shownBytes + byteLen header + 1) totalBytes s.linesShown totalLines
        (start + s.linesShown))
    else if requestedEnd < totalLines then
      some (.moreLines s.linesShown totalLines (requestedEnd + 1))
    else none
  { header, lines := s.out, marker }

def executeReadFileTool (args : ReadFileArgs) (file : TextFile) (window : Nat → Nat) :
    Except String ReadView :=
  if args.path.toList.all isWhitespace then .error "missing required string argument: path"
  else if args.startLine = 0 then .error "start_line must be >= 1"
  else if args.maxLines = 0 then .error "max_lines must be >= 1"
  else if maxReadFileLines < args.maxLines then .error "max_lines must be <= 2000"
  else do
    let reader ← openTextReader file window
    let (items, stream) := TextStream.collect { reader }
    let state ← readLines u file.path args.startLine args.maxLines items {}
    if stream.linesRead = 0 then
      .ok { header := header file.label "none (empty file)".toList, lines := [], marker := none }
    else if stream.linesRead < args.startLine then
      .error ("start_line " ++ toString args.startLine ++ " is past end of file; file has " ++
        toString stream.linesRead ++ " lines")
    else
      .ok (readView file args.startLine args.maxLines stream.linesRead stream.totalBytes state)

end Choreographr.Tools
