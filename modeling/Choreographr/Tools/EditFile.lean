import Choreographr.Lib.Occurrences
import Choreographr.Session.Types
import Choreographr.Tools.Sanitize

/-!
# The edit_file tool

A file is read, its line breaks are normalized, the edits are applied one after the other, and
the line breaks of the file are restored when it is written. An offset counts characters where
the source counts bytes: every offset is that of a match. The file system and the diff are
parameters; nothing else touches the file, as the call has its mutation lock.
-/

namespace Choreographr.Tools

open Lib

/-! ## Arguments and errors -/

structure TextEditArgs where
  oldText : List Char
  newText : List Char
  replaceAll : Option Bool := none
  nearLine : Option Nat := none

structure EditFileArgs where
  path : List Char
  edits : List TextEditArgs
  expectedSha256 : Option (List Char) := none
  dryRun : Option Bool := none

inductive EditError where
  | emptyOldText (index : Nat)
  | identical (index : Nat)
  | notFound (index : Nat) (lines : Option (List Nat))
  | ambiguous (index : Nat) (lines : List Nat)
deriving DecidableEq

inductive EditFileError where
  | missingPath
  | missingEdits
  | sha256Mismatch (path expected actual : List Char)
  | edit (error : EditError)
  | write (error : List Char)
deriving DecidableEq

/-- The decimal numbers, joined by `", "`. -/
def joinNumbers (numbers : List Nat) : List Char :=
  List.intercalate ", ".toList (numbers.map (Nat.toDigits 10))

namespace EditError

def index : EditError → Nat
  | emptyOldText index => index
  | identical index => index
  | notFound index _ => index
  | ambiguous index _ => index

def reason : EditError → List Char
  | emptyOldText _ => "old_text must not be empty".toList
  | identical _ => "old_text and new_text are identical (no change)".toList
  | notFound _ (some lines) =>
      "old_text not found (closest match at line ".toList ++ joinNumbers lines ++ ")".toList
  | notFound _ none => "old_text not found".toList
  | ambiguous _ lines =>
      "old_text matched ".toList ++ Nat.toDigits 10 lines.length ++ " locations (lines ".toList ++
        joinNumbers lines ++
        "); pass near_line to disambiguate or replace_all to replace all".toList

def message (e : EditError) : List Char :=
  "edit ".toList ++ Nat.toDigits 10 (e.index + 1) ++ ": ".toList ++ e.reason

end EditError

def EditFileError.message : EditFileError → List Char
  | missingPath => "missing required string argument: path".toList
  | missingEdits => "missing required array argument: edits".toList
  | sha256Mismatch path expected actual =>
      "expected_sha256 mismatch for ".toList ++ path ++ ": expected ".toList ++ expected ++
        ", got ".toList ++ actual
  | edit error => error.message
  | write error => error

/-! ## Line endings -/

def crlf : List Char := ['\r', '\n']

/-- `str::contains` -/
def contains (text pat : List Char) : Bool := decide (pat <:+: text)

def detectLineEnding (text : List Char) : List Char := if contains text crlf then crlf else ['\n']

def toLf (text : List Char) : List Char :=
  if text.contains '\r' then replace crlf ['\n'] text else text

def restoreLineEndings (text ending : List Char) : List Char :=
  if ending = ['\n'] then text else replace ['\n'] ending text

/-! ## Locating -/

def lineOfOffset (content : List Char) (offset : Nat) : Nat :=
  (content.take offset).count '\n' + 1

/-- `usize::abs_diff` -/
def absDiff (a b : Nat) : Nat := (a - b) + (b - a)

/-- The loop of `nearest_match`. No distance reaches `usize::MAX`, which the best distance starts
from: it is `none` here. -/
def nearestLoop (content : List Char) (nearLine : Nat) :
    Nat × Option Nat → List Nat → Nat × Option Nat
  | best, [] => best
  | (best, bestDist), offset :: rest =>
      let dist := absDiff (lineOfOffset content offset) nearLine
      if bestDist.all fun bestDist => dist < bestDist then
        nearestLoop content nearLine (offset, some dist) rest
      else nearestLoop content nearLine (best, bestDist) rest

def nearestMatch (content : List Char) (found : List Nat) (nearLine : Nat) : Nat :=
  (nearestLoop content nearLine (found.headD 0, none) found).1

/-- `str::split_inclusive('\n')` -/
def splitInclusive : List Char → List (List Char)
  | [] => []
  | c :: rest =>
      if c = '\n' then [c] :: splitInclusive rest
      else
        match splitInclusive rest with
        | [] => [[c]]
        | first :: more => (c :: first) :: more

/-- `strip_suffix` of one character -/
def stripSuffix (c : Char) (text : List Char) : List Char :=
  if text.getLast? = some c then text.dropLast else text

/-- `str::lines` -/
def lines (text : List Char) : List (List Char) :=
  (splitInclusive text).map fun line =>
    if line.getLast? = some '\n' then stripSuffix '\r' line.dropLast else line

/-- `str::trim` -/
def trimText (text : List Char) : List Char :=
  ((text.dropWhile Session.isWhitespace).reverse.dropWhile Session.isWhitespace).reverse

def closestLineHint (content oldText : List Char) : Option (List Nat) :=
  match (lines oldText).head? with
  | none => none
  | some line =>
      let needle := trimText line
      if needle = [] then none
      else
        let hits := (((lines content).zipIdx 1).filter fun e => contains e.1 needle).map Prod.snd
        if hits = [] then none else some (hits.take 5)

/-! ## Editing -/

/-- `String::replace_range` of a range that starts at `offset` -/
def replaceRange (content : List Char) (offset length : Nat) (new : List Char) : List Char :=
  content.take offset ++ new ++ content.drop (offset + length)

/-- One round of the loop of `apply_text_edits`: the content and the number of replacements. -/
def applyTextEdit (index : Nat) (content : List Char) (edit : TextEditArgs) :
    Except EditError (List Char × Nat) :=
  let oldText := toLf edit.oldText
  let newText := toLf edit.newText
  let found := matchIndices oldText content
  if oldText = [] then .error (.emptyOldText index)
  else if oldText = newText then .error (.identical index)
  else if found = [] then .error (.notFound index (closestLineHint content oldText))
  else if edit.replaceAll.getD false then .ok (replace oldText newText content, found.length)
  else if found.length = 1 then
    .ok (replaceRange content (found.headD 0) oldText.length newText, 1)
  else
    match edit.nearLine with
    | some nearLine =>
        .ok (replaceRange content (nearestMatch content found nearLine) oldText.length newText, 1)
    | none => .error (.ambiguous index (found.map (lineOfOffset content)))

structure AppliedEditSummary where
  content : List Char
  original : Option (List Char)
  replacementCount : Nat
  charDelta : Int

namespace AppliedEditSummary

/-- The counters after one edit. -/
def apply (summary : AppliedEditSummary) (edit : TextEditArgs) (content : List Char) (n : Nat) :
    AppliedEditSummary :=
  { summary with
    content
    replacementCount := summary.replacementCount + n
    charDelta := summary.charDelta +
      (((toLf edit.newText).length : Int) - (toLf edit.oldText).length) * n }

end AppliedEditSummary

def applyEditsFrom (index : Nat) (summary : AppliedEditSummary) :
    List TextEditArgs → Except EditError AppliedEditSummary
  | [] => .ok summary
  | edit :: rest =>
      match applyTextEdit index summary.content edit with
      | .error e => .error e
      | .ok (content, n) => applyEditsFrom (index + 1) (summary.apply edit content n) rest

def applyTextEdits (originalContent : List Char) (edits : List TextEditArgs) :
    Except EditError AppliedEditSummary :=
  applyEditsFrom 0 ⟨originalContent, some originalContent, 0, 0⟩ edits

/-! ## The report -/

/-- The longest run of backticks, with the run that ends here. -/
def backtickRuns (content : List Char) : Nat × Nat :=
  content.foldl (fun (maxRun, current) c =>
    if c.toNat = 0x60 then (max maxRun (current + 1), current + 1) else (maxRun, 0)) (0, 0)

def fenceContent (content lang : List Char) : List Char :=
  let trimmed := (content.reverse.dropWhile fun c => c == '\n').reverse
  let fence := List.replicate (max ((backtickRuns trimmed).1 + 1) 3) (Char.ofNat 0x60)
  fence ++ lang ++ ['\n'] ++ trimmed ++ ['\n'] ++ fence

/-- A number with its sign, as `+` in a format string asks for. -/
def signed (n : Int) : List Char :=
  (if n < 0 then ['-'] else ['+']) ++ Nat.toDigits 10 n.natAbs

/-- What lies outside the tool. -/
structure EditEnv where
  tables : UnicodeTables
  sha256Hex : List Char → List Char
  /-- `resolved.display()` -/
  resolved : List Char
  /-- `display_path_label` of the resolved path -/
  label : List Char
  generateDiff : (original content path : List Char) → List Char
  /-- The error of the atomic write, which then leaves the file as it was. -/
  writeError : Option (List Char)

def formatEditResult (env : EditEnv) (action path : List Char) (summary : AppliedEditSummary) :
    List Char :=
  let out := action ++ " file: ".toList ++ path ++ " (".toList ++
    Nat.toDigits 10 summary.replacementCount ++ " replacement".toList ++
    (if summary.replacementCount = 1 then [] else ['s']) ++ ", ".toList ++
    signed summary.charDelta ++ " chars)".toList
  match summary.original with
  | none => out
  | some original =>
      let diff := env.generateDiff original summary.content path
      if diff = [] then out else out ++ ['\n', '\n'] ++ fenceContent diff "diff".toList

/-! ## The tool -/

/-- The result, and the content of the file after the call. -/
def applyEditFileLocked (env : EditEnv) (args : EditFileArgs) (file : List Char) :
    Except EditFileError (List Char) × List Char :=
  let actual := env.sha256Hex file
  let mismatch := args.expectedSha256.filter fun expected =>
    actual ≠ (trimText expected).map Char.toLower
  match mismatch with
  | some expected => (.error (.sha256Mismatch env.resolved (trimText expected) actual), file)
  | none =>
      match applyTextEdits (toLf file) args.edits with
      | .error e => (.error (.edit e), file)
      | .ok summary =>
          let finalContent := restoreLineEndings summary.content (detectLineEnding file)
          let display := sanitizeName env.tables env.label
          if args.dryRun.getD false then
            (.ok (formatEditResult env "would edit".toList display summary), file)
          else
            match env.writeError with
            | some error => (.error (.write error), file)
            | none => (.ok (formatEditResult env "edited".toList display summary), finalContent)

def executeEditFileTool (env : EditEnv) (args : EditFileArgs) (file : List Char) :
    Except EditFileError (List Char) × List Char :=
  if trimText args.path = [] then (.error .missingPath, file)
  else if args.edits = [] then (.error .missingEdits, file)
  else applyEditFileLocked env args file

end Choreographr.Tools
