import Choreographr.Lib.LastMatch
import Choreographr.Tui.TextFilter

/-!
# The normalization cache of a streaming source

The cache holds the source seen so far and its normalized form. On each frame it normalizes again
only what stands behind the last line break.
-/

namespace Choreographr.Tui

open Lib Tools

variable (u : UnicodeTables) (w : CharWidths)

structure NormalizedSource where
  raw : List Char := []
  normalized : List Char := []

/-- The offset just past the last line break. -/
def lineStart (text : List Char) : Nat := ((rposition (· == '\n') text).map (· + 1)).getD 0

def NormalizedSource.update (s : NormalizedSource) (src : List Char) : NormalizedSource :=
  if ¬ s.raw <+: src then { raw := src, normalized := normalizeDisplayText u w src }
  else
    let appended := src.drop s.raw.length
    if appended = [] then s
    else
      let rawLineStart := lineStart s.raw
      let outLineStart := lineStart s.normalized
      let tail := src.drop rawLineStart
      let tailNormalized := normalizeDisplayText u w tail
      { raw := s.raw ++ appended
        normalized := s.normalized.take outLineStart ++ tailNormalized }

end Choreographr.Tui
