import Choreographr.Tools.Grep.Sink

/-!
# The walk of the search tool

The files of a tree are searched one after the other, until the sink has stopped. Walking, matching
and reading belong to crates of their own. What is asked of the searcher is that it makes a callback
for a match in a file that is text throughout, and that it neither calls such a file binary nor
fails on it.
-/

namespace Choreographr.Tools.Grep

open Lib Session

variable (u : UnicodeTables) {Path Matcher : Type} [DecidableEq Path]

structure GrepConfig where
  pattern : List Char
  regex : Bool
  ignoreCase : Bool
  context : Nat
  outputMode : GrepOutputMode
  includeGlob : Option (List Char)
  maxResults : Nat

structure WalkEntry (Path : Type) where
  path : Path
  relativePath : Path
  isFile : Bool

/-- What `SearcherBuilder` is told. -/
structure SearcherConfig where
  beforeContext : Nat
  afterContext : Nat
  maxMatches : Option Nat

/-- The file tree and the crates that the tool works with. -/
structure GrepWorld (Path Matcher : Type) where
  paths : PathOps Path
  /-- `Path::new` -/
  pathNew : List Char → Path
  isFile : Path → Bool
  buildMatcher : (caseInsensitive fixedStrings : Bool) → List Char → Except (List Char) Matcher
  compileGlob : List Char → Except (List Char) (Path → Bool)
  /-- What the walker yields until it is told to quit, and how it fails then. -/
  walk : Path → Except (List Char) (List (WalkEntry Path) × Option (List Char))
  /-- The callbacks of a search that the sink never stops. -/
  calls : Matcher → SearcherConfig → Path → List SinkCall
  /-- How reading fails behind the callbacks. -/
  readError : Matcher → SearcherConfig → Path → Option (List Char)
  /-- The file has no NUL byte and can be read. -/
  isText : Path → Prop
  hasMatch : Matcher → Path → Prop
  /-- A walk yields every path once. -/
  walk_once : ∀ root entries fatal, walk root = .ok (entries, fatal) →
    (entries.map WalkEntry.path).Nodup
  text_calls : ∀ m c path, isText path → readError m c path = none ∧
    (calls m c path).any SinkCall.isBinary = false
  match_calls : ∀ m c path, isText path → hasMatch m path → c.maxMatches ≠ some 0 →
    (calls m c path).any SinkCall.isMatched = true

/-! ## One file -/

/-- The searcher goes on as long as the sink says so. -/
def deliver (s : GrepSink Path) : List SinkCall → GrepSink Path × Bool
  | [] => (s, true)
  | call :: rest =>
      let (s, goesOn) := s.answer u call
      if goesOn then deliver s rest else (s, false)

def searchPath (w : GrepWorld Path Matcher) (m : Matcher) (c : SearcherConfig)
    (s : GrepSink Path) (path : Path) : GrepSink Path × Option (List Char) :=
  let (s, finished) := deliver u s (w.calls m c path)
  (s, if finished then w.readError m c path else none)

/-- The sink when the search of a file of the tree is over. -/
def searchEntry (w : GrepWorld Path Matcher) (m : Matcher) (c : SearcherConfig)
    (s : GrepSink Path) (path : Path) : GrepSink Path :=
  let (s, error) := searchPath u w m c (s.beginFile u w.paths path) path
  if error.isSome then s.abortFile else s

/-! ## The walk -/

/-- The files that are searched, of the entries of a walk. -/
def searchedPaths (filter : Option (Path → Bool)) (entries : List (WalkEntry Path)) : List Path :=
  (entries.filter fun entry => entry.isFile && filter.all fun f => f entry.relativePath).map
    WalkEntry.path

/-- The sinks at the ends of the files, and whether the walk was told to quit. -/
def walkFiles (w : GrepWorld Path Matcher) (m : Matcher) (c : SearcherConfig) :
    GrepSink Path → List Path → GrepSink Path × Bool
  | s, [] => (s, false)
  | s, path :: rest =>
      let s := (searchEntry u w m c s path).endFile
      if s.shouldStop then (s, true) else walkFiles w m c s rest

def maxContextLines : Nat := 100

def GrepConfig.afterContext (config : GrepConfig) : Nat :=
  let context := if config.context ≤ maxContextLines then config.context else maxContextLines
  if config.outputMode = .content ∧ 0 < context then context else 0

def GrepConfig.searcher (config : GrepConfig) : SearcherConfig where
  beforeContext := config.afterContext
  afterContext := config.afterContext
  maxMatches :=
    if config.outputMode = .content then some (clampMaxResults config.maxResults) else none

def compileMatcher (w : GrepWorld Path Matcher) (config : GrepConfig) :
    Except (List Char) Matcher :=
  if config.regex then
    (w.buildMatcher config.ignoreCase false config.pattern).mapError
      fun e => "invalid regex pattern: ".toList ++ e
  else
    (w.buildMatcher config.ignoreCase true config.pattern).mapError
      fun e => "invalid pattern: ".toList ++ e

def compileInclude (w : GrepWorld Path Matcher) (config : GrepConfig) :
    Except (List Char) (Option (Path → Bool)) :=
  match config.includeGlob with
  | none => .ok none
  | some glob =>
      match w.compileGlob glob with
      | .ok filter => .ok (some filter)
      | .error e => .error ("invalid include glob: ".toList ++ e)

/-- What is known before the first file is searched. -/
structure GrepPlan (Path Matcher : Type) where
  matcher : Matcher
  singleFile : Bool
  /-- The files that pass the filter, in the order of the walk. -/
  files : List Path
  walkError : Option (List Char)

/-- `run_grep_walk` up to the search. -/
def prepare (w : GrepWorld Path Matcher) (resolved : Path) (config : GrepConfig) :
    Except (List Char) (GrepPlan Path Matcher) := do
  let matcher ← compileMatcher w config
  let filter ← compileInclude w config
  if w.isFile resolved then
    let rawName := ((w.paths.fileName resolved).map w.paths.toStringLossy).getD []
    let passes := filter.all fun f => f (w.pathNew rawName)
    .ok ⟨matcher, true, if passes then [resolved] else [], none⟩
  else
    match w.walk resolved with
    | .error e => .error ("failed to create walker: ".toList ++ e)
    | .ok (entries, fatal) => .ok ⟨matcher, false, searchedPaths filter entries, fatal⟩

def newSink (w : GrepWorld Path Matcher) (resolved : Path) (config : GrepConfig)
    (singleFile : Bool) : GrepSink Path :=
  GrepSink.new w.paths config.outputMode (clampMaxResults config.maxResults) config.afterContext
    resolved singleFile

/-- The sink after the search, if the filter has not excluded the one file there is. -/
def runSearch (w : GrepWorld Path Matcher) (resolved : Path) (config : GrepConfig)
    (plan : GrepPlan Path Matcher) : Except (List Char) (Option (GrepSink Path)) :=
  let sink := newSink w resolved config plan.singleFile
  if plan.singleFile then
    match plan.files with
    | [] => .ok none
    | path :: _ =>
        let (sink, error) :=
          searchPath u w plan.matcher config.searcher (sink.beginFile u w.paths path) path
        match error with
        | some e =>
            .error ("failed to search '".toList ++ w.paths.toStringLossy path ++
              "': ".toList ++ e)
        | none => .ok (some sink.endFile)
  else
    let (sink, quit) := walkFiles u w plan.matcher config.searcher sink plan.files
    match plan.walkError with
    | none => .ok (some sink)
    | some e => if quit then .ok (some sink) else .error ("walk error: ".toList ++ e)

def searchResult (w : GrepWorld Path Matcher) (config : GrepConfig) :
    Option (GrepSink Path) → List Char
  | none => noMatches
  | some sink => finishGrep u w.paths sink config.pattern config.regex

def runGrepWalk (w : GrepWorld Path Matcher) (resolved : Path) (config : GrepConfig) :
    Except (List Char) (List Char) := do
  let plan ← prepare w resolved config
  let sink ← runSearch u w resolved config plan
  .ok (searchResult u w config sink)

end Choreographr.Tools.Grep
