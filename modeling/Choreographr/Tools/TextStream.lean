import Choreographr.Lib.TerminatedLines
import Choreographr.Session.Types

/-!
# Streaming the lines of a text file

A file is read through a buffer that hands out the bytes in windows of any size. A line is kept
up to a display cap; what is over the cap is drained, counted but not kept, so that the line
numbers, the offsets and the total stay those of the file.
-/

namespace Choreographr.Tools

open Lib Session

def newline : UInt8 := 10

/-! ## The reader -/

/-- A `BufRead` over the bytes that are left. The window that the `n`-th `fill_buf` shows has
`window n + 1` bytes, or what is left of them. -/
structure BufReader where
  rest : Bytes
  window : Nat → Nat
  fills : Nat := 0

namespace BufReader

/-- What `fill_buf` shows. -/
def available (r : BufReader) : Bytes := r.rest.take (r.window r.fills + 1)

/-- The reader after a `fill_buf`. -/
def filled (r : BufReader) : BufReader := { r with fills := r.fills + 1 }

def consume (r : BufReader) (n : Nat) : BufReader := { r with rest := r.rest.drop n }

theorem available_eq_nil {r : BufReader} : r.available = [] ↔ r.rest = [] := by
  simp [available]

end BufReader

/-! ## One line -/

/-- The loop of `read_line_capped`. The result has the buffer and whether the line is complete. -/
def readLineCappedLoop (cap : Nat) (r : BufReader) (buf : Bytes) : BufReader × Bytes × Bool :=
  if r.available = [] then (r.filled, buf, true)
  else
    let remaining := cap - buf.length
    if remaining = 0 then (r.filled, buf, false)
    else
      let window := r.available.take remaining
      match window.findIdx? (· == newline) with
      | some idx => (r.filled.consume (idx + 1), buf ++ r.available.take (idx + 1), true)
      | none => readLineCappedLoop cap (r.filled.consume window.length) (buf ++ window)
termination_by r.rest.length
decreasing_by
  rename_i hSome hRoom
  simp only [BufReader.available_eq_nil] at hSome
  have hPos := List.length_pos_of_ne_nil hSome
  simp only [BufReader.consume, BufReader.filled, BufReader.available, List.length_drop,
    List.length_take]
  omega

def readLineCapped (cap : Nat) (r : BufReader) : BufReader × Bytes × Bool :=
  readLineCappedLoop cap r []

def drainRestOfLine (r : BufReader) (drained : Nat) : BufReader × Nat :=
  if r.available = [] then (r.filled, drained)
  else
    match r.available.findIdx? (· == newline) with
    | some idx => (r.filled.consume (idx + 1), drained + (idx + 1))
    | none =>
        drainRestOfLine (r.filled.consume r.available.length) (drained + r.available.length)
termination_by r.rest.length
decreasing_by
  rename_i hSome
  simp only [BufReader.available_eq_nil] at hSome
  have hPos := List.length_pos_of_ne_nil hSome
  simp only [BufReader.consume, BufReader.filled, BufReader.available, List.length_drop,
    List.length_take]
  omega

/-! ## The stream -/

def maxLineDisplayBytes : Nat := 64 * 1024

structure StreamedLine where
  lineNumber : Nat
  content : Bytes
  /-- The display cap did not cut the line. -/
  complete : Bool
  startOffset : Nat
deriving DecidableEq

structure StreamedLineMeta where
  lineNumber : Nat
  complete : Bool
  startOffset : Nat

structure TextStream where
  reader : BufReader
  lineBuf : Bytes := []
  linesRead : Nat := 0
  totalBytes : Nat := 0
  finished : Bool := false

namespace TextStream

def advance (s : TextStream) : TextStream × Option StreamedLineMeta :=
  if s.finished then (s, none)
  else
    let (reader, lineBuf, complete) := readLineCapped maxLineDisplayBytes s.reader
    if lineBuf = [] then ({ s with reader, lineBuf, finished := true }, none)
    else
      let startOffset := s.totalBytes
      let (reader, drained) := if complete then (reader, 0) else drainRestOfLine reader 0
      ({ s with
          reader, lineBuf
          totalBytes := s.totalBytes + (lineBuf.length + drained)
          linesRead := s.linesRead + 1 },
        some ⟨s.linesRead + 1, complete, startOffset⟩)

/-- `Iterator::next` -/
def next (s : TextStream) : TextStream × Option StreamedLine :=
  let (s', item) := s.advance
  (s', item.map fun line => ⟨line.lineNumber, s'.lineBuf, line.complete, line.startOffset⟩)

end TextStream

end Choreographr.Tools
