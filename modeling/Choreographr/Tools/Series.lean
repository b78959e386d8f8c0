import Choreographr.Lib.Occurrences
import Choreographr.Protocols.Values

/-!
# Substitution of step outputs

The arguments of a step may name the outputs of earlier steps by placeholders in their strings. A
string is scanned once: behind an opening the text up to the first closing is read as the index
of a step, and the scan goes on behind the closing.
-/

namespace Choreographr.Tools

open Lib Protocols

/-- The outputs of the completed steps, by index. -/
structure StepOutputs where
  get : Nat → Option String
  /-- An index is a `usize`. -/
  bounded : ∀ idx, get idx ≠ none → idx ≤ usizeMax

/-- `str::parse::<usize>` -/
def parseUsize (text : List Char) : Option Nat :=
  let digits := if text.head? = some '+' then text.tail else text
  if digits ≠ [] ∧ digits.all Char.isDigit = true ∧ Nat.ofDigitChars 10 digits 0 ≤ usizeMax then
    some (Nat.ofDigitChars 10 digits 0)
  else none

def placeholderOpen : List Char := "\x7b\x7bstep_".toList

def placeholderClose : List Char := "\x7d\x7d".toList

/-- What is put in for the text between an opening and a closing. -/
def resolvePlaceholder (outputs : StepOutputs) (inner : List Char) : List Char :=
  match parseUsize inner with
  | some idx =>
      match outputs.get idx with
      | some output => output.toList
      | none => placeholderOpen ++ Nat.toDigits 10 idx ++ placeholderClose
  | none => placeholderOpen ++ inner ++ placeholderClose

theorem placeholderOpen_ne_nil : placeholderOpen ≠ [] := by decide

theorem placeholderClose_ne_nil : placeholderClose ≠ [] := by decide

def substituteText (outputs : StepOutputs) (text : List Char) : List Char :=
  match _hOpen : splitFirst placeholderOpen text with
  | none => text
  | some (before, behind) =>
      match _hClose : splitFirst placeholderClose behind with
      | none => before ++ placeholderOpen ++ behind
      | some (inner, rest) =>
          before ++ resolvePlaceholder outputs inner ++ substituteText outputs rest
termination_by text.length
decreasing_by
  exact (length_lt_of_splitFirst placeholderClose_ne_nil _hClose).trans
    (length_lt_of_splitFirst placeholderOpen_ne_nil _hOpen)

mutual

def substituteArgs (outputs : StepOutputs) : Json → Json
  | .str text => .str (String.ofList (substituteText outputs text.toList))
  | .obj fields => .obj (substituteFields outputs fields)
  | .arr items => .arr (substituteItems outputs items)
  | .null => .null
  | .bool value => .bool value
  | .int value => .int value
  | .float text => .float text

def substituteFields (outputs : StepOutputs) : List (String × Json) → List (String × Json)
  | [] => []
  | (key, value) :: rest => (key, substituteArgs outputs value) :: substituteFields outputs rest

def substituteItems (outputs : StepOutputs) : List Json → List Json
  | [] => []
  | value :: rest => substituteArgs outputs value :: substituteItems outputs rest

end

end Choreographr.Tools
