import Mathlib.Data.Nat.Log
import Choreographr.Lib.Utf8
import Choreographr.Tools.Sanitize
import Choreographr.Tools.TextStream

/-!
# The sink of the search tool

The searcher hands the matches and the lines around them to a sink, one file at a time. The sink
keeps what will be shown and charges every item to a byte budget, before it is rendered. Paths are
of any type; the operations on them are parameters.
-/

namespace Choreographr.Tools.Grep

open Lib Session

variable (u : UnicodeTables) {Path : Type} [DecidableEq Path]

/-! ## Lines -/

/-- The text of a line as it is shown at most, with its terminator. -/
def lossyWindow (bytes : Bytes) : List Char := lossyText (bytes.take (maxLineDisplayBytes + 4))

def lineTruncatedMarker : List Char := "...[line truncated: exceeds 64 KiB]".toList

def capLine (line : List Char) : List Char × Bool :=
  if byteLen line ≤ maxLineDisplayBytes then (line, false)
  else (bytePrefix maxLineDisplayBytes line ++ lineTruncatedMarker, true)

/-- Exactly one terminator is stripped. -/
def prepareLine (lossy : List Char) : List Char × Bool :=
  if ['\r', '\n'] <:+ lossy then capLine (lossy.take (lossy.length - 2))
  else if ['\n'] <:+ lossy then capLine lossy.dropLast
  else capLine lossy

/-! ## Items -/

inductive GrepOutputMode where
  | content
  | filesWithMatches
  | count
deriving DecidableEq

def GrepOutputMode.capNoun : GrepOutputMode → List Char
  | content => "matches".toList
  | filesWithMatches => "files".toList
  | count => "files".toList

inductive GrepItem where
  | matchItem (lineNumber : Nat) (content : List Char)
  | contextItem (lineNumber : Nat) (content : List Char)
  | breakItem
deriving DecidableEq

/-- `checked_ilog10`, plus one. -/
def decimalLen (n : Nat) : Nat := if n = 0 then 1 else Nat.log 10 n + 1

namespace GrepItem

def render (label : List Char) : GrepItem → List Char
  | matchItem lineNumber content =>
      label ++ ":".toList ++ Nat.toDigits 10 lineNumber ++ ":".toList ++ content
  | contextItem lineNumber content =>
      label ++ "-".toList ++ Nat.toDigits 10 lineNumber ++ "-".toList ++ content
  | breakItem => "--".toList

def renderLen (label : List Char) : GrepItem → Nat
  | matchItem lineNumber content => byteLen label + 2 + decimalLen lineNumber + byteLen content
  | contextItem lineNumber content => byteLen label + 2 + decimalLen lineNumber + byteLen content
  | breakItem => 2

def isMatch : GrepItem → Bool
  | matchItem _ _ => true
  | contextItem _ _ => false
  | breakItem => false

end GrepItem

/-! ## The sink -/

/-- What the tool asks of paths. -/
structure PathOps (Path : Type) where
  /-- `PathBuf::new()` -/
  new : Path
  fileName : Path → Option Path
  stripPrefix : Path → Path → Option Path
  toStringLossy : Path → List Char

def displayPathLabel (fs : PathOps Path) (path root : Path) : List Char :=
  match fs.stripPrefix path root with
  | some rel => if rel = fs.new then fs.toStringLossy path else fs.toStringLossy rel
  | none => fs.toStringLossy path

def pathLabel (fs : PathOps Path) (path resolved : Path) (singleFile : Bool) : List Char :=
  if singleFile then ((fs.fileName path).map fs.toStringLossy).getD []
  else displayPathLabel fs path resolved

inductive StopReason where
  | cap
  | byteBudget
deriving DecidableEq

structure ContentBucket (Path : Type) where
  label : List Char
  path : Path
  items : List GrepItem
  charged : Nat

structure GrepSink (Path : Type) where
  outputMode : GrepOutputMode
  maxResults : Nat
  stop : Option StopReason
  resolved : Path
  singleFile : Bool
  currentPath : Path
  currentLabel : List Char
  contentFiles : List (ContentBucket Path)
  contentMatchCount : Nat
  budget : Nat
  contentBytes : Nat
  matchedFiles : List Path
  countFileLines : Nat
  countEntries : List (Path × Nat)
  afterContext : Nat
  afterContextRemaining : Nat
  filesSearched : Nat
  fileAborted : Bool

/-- The kinds of a context line. -/
inductive SinkContextKind where
  | before
  | after
  | other
deriving DecidableEq

/-- A callback of the searcher. -/
inductive SinkCall where
  | matched (lineNumber : Option Nat) (bytes : Bytes)
  | context (kind : SinkContextKind) (lineNumber : Option Nat) (bytes : Bytes)
  | contextBreak
  | binaryData (offset : Nat)

def SinkCall.isMatched : SinkCall → Bool
  | .matched _ _ => true
  | .context _ _ _ => false
  | .contextBreak => false
  | .binaryData _ => false

def SinkCall.isBinary : SinkCall → Bool
  | .binaryData _ => true
  | .matched _ _ => false
  | .context _ _ _ => false
  | .contextBreak => false

/-- `max_results` is clamped before a sink is made. -/
def clampMaxResults (maxResults : Nat) : Nat :=
  if maxResults < 1 then 1 else if 200 < maxResults then 200 else maxResults

/-- The budget of a sink: the output cap less the room for the longest tail. -/
def collectionBudget (outputMode : GrepOutputMode) (maxResults : Nat) : Nat :=
  maxToolOutputBytes - (1 +
    ((truncationMarker true maxResults outputMode.capNoun).map byteLen).getD 0 +
    byteLen truncationSuffix)

namespace GrepSink

def new (fs : PathOps Path) (outputMode : GrepOutputMode) (maxResults afterContext : Nat)
    (resolved : Path) (singleFile : Bool) : GrepSink Path where
  outputMode := outputMode
  maxResults := maxResults
  stop := none
  resolved := resolved
  singleFile := singleFile
  currentPath := fs.new
  currentLabel := []
  contentFiles := []
  contentMatchCount := 0
  budget := collectionBudget outputMode maxResults
  contentBytes := 0
  matchedFiles := []
  countFileLines := 0
  countEntries := []
  afterContext := afterContext
  afterContextRemaining := afterContext
  filesSearched := 0
  fileAborted := false

def label (fs : PathOps Path) (s : GrepSink Path) (path : Path) : List Char :=
  sanitizeName u (pathLabel fs path s.resolved s.singleFile)

/-! ### Files -/

def beginFile (fs : PathOps Path) (s : GrepSink Path) (path : Path) : GrepSink Path :=
  { s with
    currentPath := path
    currentLabel := s.label u fs path
    filesSearched := s.filesSearched + 1
    fileAborted := false
    afterContextRemaining := s.afterContext }

def abortFile (s : GrepSink Path) : GrepSink Path := { s with fileAborted := true }

def dropCurrentBucket (s : GrepSink Path) : GrepSink Path :=
  match s.contentFiles.getLast? with
  | some bucket =>
      if bucket.path = s.currentPath then
        { s with
          contentBytes := s.contentBytes - bucket.charged
          contentMatchCount := s.contentMatchCount - bucket.items.countP GrepItem.isMatch
          contentFiles := s.contentFiles.dropLast }
      else s
  | none => s

def endFile (s : GrepSink Path) : GrepSink Path :=
  let s :=
    if s.fileAborted then if s.outputMode = .content then s.dropCurrentBucket else s
    else if s.outputMode = .count ∧ 0 < s.countFileLines then
      let entries := s.countEntries ++ [(s.currentPath, s.countFileLines)]
      { s with
        countEntries := entries
        stop := if s.maxResults ≤ entries.length then some .cap else s.stop }
    else s
  { s with
    countFileLines := if s.outputMode = .count then 0 else s.countFileLines
    fileAborted := false }

/-! ### Items -/

def joiningNewline (s : GrepSink Path) : Nat := if s.contentBytes ≠ 0 then 1 else 0

/-- The check of a line before it is escaped, by the length it will have. -/
def budgetAllowsLen (s : GrepSink Path) (lineNumber contentLen : Nat) : GrepSink Path × Bool :=
  let estimate := s.contentBytes + byteLen s.currentLabel + 2 + decimalLen lineNumber +
    contentLen + s.joiningNewline
  if s.budget < estimate then ({ s with stop := some .byteBudget }, false) else (s, true)

/-- Whether the last bucket is that of the current file. -/
def matchesCurrent (s : GrepSink Path) : Bool :=
  s.contentFiles.getLast?.any fun bucket => bucket.path = s.currentPath

def pushItem (s : GrepSink Path) (item : GrepItem) : GrepSink Path × Bool :=
  if s.stop = some .byteBudget then (s, false)
  else if s.matchesCurrent = false ∧ item = .breakItem then (s, true)
  else
    let rendered := item.renderLen s.currentLabel + s.joiningNewline
    if s.budget < s.contentBytes + rendered then ({ s with stop := some .byteBudget }, false)
    else
      let files :=
        if s.matchesCurrent then s.contentFiles
        else s.contentFiles ++ [⟨s.currentLabel, s.currentPath, [], 0⟩]
      let s := { s with contentFiles := files }
      match files.getLast? with
      | none => (s, true)
      | some bucket =>
          if item = .breakItem ∧ bucket.items.getLast? = some .breakItem then (s, true)
          else
            ({ s with
              contentBytes := s.contentBytes + rendered
              contentFiles := files.dropLast ++
                [{ bucket with
                  items := bucket.items ++ [item], charged := bucket.charged + rendered }] },
              true)

/-- A line is checked, escaped and pushed. -/
def offerLine (s : GrepSink Path) (lineNumber : Nat) (line : List Char)
    (item : Nat → List Char → GrepItem) : GrepSink Path × Bool :=
  let (s, allowed) := s.budgetAllowsLen lineNumber (sanitizeTextLen u line true)
  if allowed then s.pushItem (item lineNumber (sanitizeContent u line)) else (s, false)

def drainAfterContext (s : GrepSink Path) (lineNumber : Nat) (bytes : Bytes) :
    GrepSink Path × Bool :=
  let (line, truncated) := prepareLine (lossyWindow bytes)
  let (s, pushed) := s.offerLine u lineNumber line .contextItem
  if pushed then ({ s with afterContextRemaining := s.afterContextRemaining - 1 }, !truncated)
  else (s, false)

/-! ### Callbacks -/

def matched (s : GrepSink Path) (lineNumber : Option Nat) (bytes : Bytes) : GrepSink Path × Bool :=
  let lineNumber := lineNumber.getD 0
  if s.stop = some .cap then
    if s.outputMode = .content ∧ 0 < s.afterContextRemaining then
      s.drainAfterContext u lineNumber bytes
    else (s, false)
  else if s.stop.isSome then (s, false)
  else
    match s.outputMode with
    | .content =>
        let (s, pushed) :=
          s.offerLine u lineNumber (prepareLine (lossyWindow bytes)).1 .matchItem
        if pushed then
          let s := { s with contentMatchCount := s.contentMatchCount + 1 }
          if s.maxResults ≤ s.contentMatchCount then
            ({ s with stop := some .cap }, decide (s.afterContext ≠ 0))
          else (s, true)
        else (s, false)
    | .filesWithMatches =>
        let files := s.matchedFiles ++ [s.currentPath]
        ({ s with
          matchedFiles := files
          stop := if s.maxResults ≤ files.length then some .cap else s.stop }, false)
    | .count => ({ s with countFileLines := s.countFileLines + 1 }, true)

def context (s : GrepSink Path) (kind : SinkContextKind) (lineNumber : Option Nat)
    (bytes : Bytes) : GrepSink Path × Bool :=
  if s.outputMode ≠ .content then (s, true)
  else if s.stop = some .cap then
    if kind = .after ∧ 0 < s.afterContextRemaining then
      s.drainAfterContext u (lineNumber.getD 0) bytes
    else (s, false)
  else if s.stop.isSome then (s, false)
  else s.offerLine u (lineNumber.getD 0) (prepareLine (lossyWindow bytes)).1 .contextItem

def contextBreak (s : GrepSink Path) : GrepSink Path × Bool :=
  if s.outputMode ≠ .content then (s, true)
  else if s.stop.isSome then (s, false)
  else s.pushItem .breakItem

def binaryData (s : GrepSink Path) : GrepSink Path × Bool := (s.abortFile, false)

/-- What the sink does at a callback, and whether the searcher may go on. -/
def answer (s : GrepSink Path) : SinkCall → GrepSink Path × Bool
  | .matched lineNumber bytes => s.matched u lineNumber bytes
  | .context kind lineNumber bytes => s.context u kind lineNumber bytes
  | .contextBreak => s.contextBreak
  | .binaryData _ => s.binaryData

/-! ### The result -/

def resultCount (s : GrepSink Path) : Nat :=
  match s.outputMode with
  | .content => s.contentMatchCount
  | .filesWithMatches => s.matchedFiles.length
  | .count => s.countEntries.length

def truncated (s : GrepSink Path) : Bool :=
  s.stop.isSome && !(s.singleFile && decide (s.outputMode ≠ .content))

def shouldStop (s : GrepSink Path) : Bool := s.stop.isSome

def markerCount (s : GrepSink Path) : Nat :=
  if s.stop = some .byteBudget then s.resultCount else s.maxResults

end GrepSink

/-! ## Rendering -/

def joinLines (lines : List (List Char)) : List Char := List.intercalate ['\n'] lines

def renderContent (s : GrepSink Path) : List Char :=
  joinLines (s.contentFiles.flatMap fun bucket => bucket.items.map (GrepItem.render bucket.label))

/-- The order of `String`: that of the characters. -/
def textLe : List Char → List Char → Bool
  | [], _ => true
  | _ :: _, [] => false
  | a :: as, b :: bs => a.toNat < b.toNat || (a.toNat == b.toNat && textLe as bs)

def renderFiles (fs : PathOps Path) (s : GrepSink Path) : List Char :=
  joinLines ((s.matchedFiles.map (s.label u fs)).mergeSort textLe)

def renderCount (fs : PathOps Path) (s : GrepSink Path) : List Char :=
  let entries := s.countEntries.map fun entry => (s.label u fs entry.1, entry.2)
  let sorted := entries.mergeSort fun a b =>
    !textLe b.1 a.1 || (a.1 == b.1 && decide (a.2 ≤ b.2))
  joinLines (sorted.map fun entry => entry.1 ++ ": ".toList ++ Nat.toDigits 10 entry.2)

def regexChars : List Char := ['|', '(', ')', '^', '$', '+', '*', '?', '[', ']', '\\']

def regexHint : List Char :=
  ("Note: matched literally (regex:false). Re-run with regex:true — the default — to " ++
    "interpret the pattern as a regular expression.").toList

def regexModeHint (pattern : List Char) (regex hasResults : Bool) : Option (List Char) :=
  if regex || hasResults then none
  else if pattern.any fun c => regexChars.contains c then some regexHint
  else none

def noMatches : List Char := "No matches found.".toList

def emptyResult (pattern : List Char) (regex : Bool) : List Char :=
  match regexModeHint pattern regex false with
  | some hint => hint ++ '\n' :: noMatches
  | none => noMatches

/-- The message of a search whose first match does not fit; `human_size` writes the cap. -/
def overBudget : List Char := "...[truncated: matches exceed the 128 KiB output budget]".toList

def assembleGrepOutput (body : List Char) (truncated : Bool) (maxResults : Nat)
    (noun : List Char) : List Char :=
  finishToolOutput body (truncationMarker truncated maxResults noun)

def finishGrep (fs : PathOps Path) (s : GrepSink Path) (pattern : List Char) (regex : Bool) :
    List Char :=
  if s.stop = some .byteBudget ∧ s.resultCount = 0 then overBudget
  else if s.resultCount = 0 then
    if s.filesSearched = 0 then noMatches else emptyResult pattern regex
  else
    let body :=
      match s.outputMode with
      | .content => renderContent s
      | .filesWithMatches => renderFiles u fs s
      | .count => renderCount u fs s
    assembleGrepOutput body s.truncated s.markerCount s.outputMode.capNoun

end Choreographr.Tools.Grep
