import Choreographr.Lib.Intervals
import Mathlib.Data.Nat.Basic

/-!
# Selectable columns

The renderer records with each line which display columns of it are chrome: the bars, the frames
and the padding around its text. What can be selected of a row is its content without them.
-/

namespace Choreographr.Tui

open Lib

inductive LineJoin where
  | lineBreak
  | space
  | join
deriving DecidableEq

structure TableRowId where
  table : UInt32
  row : UInt32
deriving DecidableEq

structure LineChrome where
  intervals : List (UInt16 × UInt16)
  table : Option TableRowId
  cellJoins : List LineJoin
deriving DecidableEq

namespace LineChrome

def isEmpty (chrome : LineChrome) : Bool := chrome.intervals.isEmpty

end LineChrome

/-- The chrome interval within the base range, unless nothing of it is there. -/
def clipInterval (base : Nat × Nat) (iv : UInt16 × UInt16) : Option (Nat × Nat) :=
  let lo := max iv.1.toNat base.1
  let hi := min iv.2.toNat base.2
  if lo < hi then some (lo, hi) else none

/-- The order of pairs by which the clipped intervals are sorted. -/
def intervalLe (a b : Nat × Nat) : Bool :=
  decide (a.1 < b.1) || (decide (a.1 = b.1) && decide (a.2 ≤ b.2))

def selectableIntervals (base : Nat × Nat) (chrome : LineChrome) : List (Nat × Nat) :=
  if base.2 ≤ base.1 then []
  else if chrome.isEmpty then [base]
  else
    let clipped := (chrome.intervals.filterMap (clipInterval base)).mergeSort intervalLe
    gapsFrom base.2 base.1 (coalesce clipped)

end Choreographr.Tui
