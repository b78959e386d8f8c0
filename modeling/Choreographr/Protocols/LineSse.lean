import Mathlib.Data.List.DropRight
import Choreographr.Lib.LineReader
import Choreographr.Protocols.Sse

/-!
# The line-based event readers

The readers of Anthropic and of Gemini take lines off the stream and collect the values
of the `data:` lines; a blank line ends an event, and a `[DONE]` closes the stream. Both
are a `LineReader`, with their own treatment of a line. A result of a call is an event
or an error; a call without one has found the end.
-/

namespace Choreographr.Protocols

open Session Lib

/-- A line without its line end. -/
def stripLineEnd (line : Bytes) : Bytes :=
  line.rdropWhile fun b => b = newline ∨ b = carriageReturn

/-! ## Anthropic -/

structure AnthropicSseState where
  currentEvent : Option String := none
  currentData : List String := []
deriving DecidableEq

namespace AnthropicSseState

/-- An event of `(event_type, data)`, and the state behind it. -/
def takeEvent (s : AnthropicSseState) : (String × String) × AnthropicSseState :=
  ((s.currentEvent.getD "", "\n".intercalate s.currentData), {})

def onLine (s : AnthropicSseState) (line : Bytes) :
    LineStep AnthropicSseState (Except ReadError (String × String)) :=
  let line := stripLineEnd (line ++ [newline])
  if line = [] then
    if s.currentData ≠ [] then .emit (.ok s.takeEvent.1) s.takeEvent.2
    else .more { s with currentEvent := none }
  else
    match fromUtf8 line with
    | .error e => .emit (.error e) s
    | .ok text =>
        match stripPrefix "event:" text with
        | some value => .more { s with currentEvent := some (trim value) }
        | none =>
            match stripPrefix "data:" text with
            | some value =>
                let trimmed := trimStart value
                if trimmed = "[DONE]" then .stop s
                else .more { s with currentData := s.currentData ++ [trimmed] }
            | none => .more s

/-- Flush what is collected. -/
def finishEvent (s : AnthropicSseState) :
    Option (Except ReadError (String × String)) × AnthropicSseState :=
  if s.currentData = [] then (none, s) else (some (.ok s.takeEvent.1), s.takeEvent.2)

end AnthropicSseState

def AnthropicSseReader :
    LineMachine UInt8 AnthropicSseState (Except ReadError (String × String)) where
  sep := newline
  onLine := AnthropicSseState.onLine
  onEnd := AnthropicSseState.finishEvent

/-! ## Gemini -/

structure GeminiSseState where
  lines : List String := []
deriving DecidableEq

namespace GeminiSseState

def onLine (s : GeminiSseState) (line : Bytes) : LineStep GeminiSseState (Except ReadError String) :=
  let line := stripLineEnd (line ++ [newline])
  if line = [] then
    if s.lines ≠ [] then .emit (.ok ("\n".intercalate s.lines)) {}
    else .more s
  else
    match fromUtf8 line with
    | .error e => .emit (.error e) s
    | .ok text =>
        match stripPrefix "data:" text with
        | some value =>
            let trimmed := trimStart value
            if trimmed = "[DONE]" then
              -- what is collected before it is an event
              if s.lines ≠ [] then .emitStop (.ok ("\n".intercalate s.lines)) {}
              else .stop s
            else .more { s with lines := s.lines ++ [trimmed] }
        | none => .more s

/-- Flush what is collected. -/
def flushLines (s : GeminiSseState) : Option (Except ReadError String) × GeminiSseState :=
  if s.lines = [] then (none, s) else (some (.ok ("\n".intercalate s.lines)), {})

end GeminiSseState

def GeminiSseReader : LineMachine UInt8 GeminiSseState (Except ReadError String) where
  sep := newline
  onLine := GeminiSseState.onLine
  onEnd := GeminiSseState.flushLines

end Choreographr.Protocols
