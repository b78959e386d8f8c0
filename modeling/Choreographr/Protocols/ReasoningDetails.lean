import Choreographr.Protocols.Values

/-!
# Structured reasoning details

Classification of `reasoning_details` entries in both dialects, and the lowering
of a persisted array back onto the wire. A persisted payload is the bytes of a
JSON array.
-/

namespace Choreographr.Protocols

open Session

/-- The reasoning byte budget, of one turn's capture and of one request's
replay. -/
def maxReasoningBytes : Nat := 256 * 1024

inductive DetailKind where
  | text
  | summary
  | encrypted
deriving DecidableEq

namespace DetailKind

/-- The entry field that carries this kind's payload. -/
def payloadKey : DetailKind → String
  | .text => "text"
  | .summary => "summary"
  | .encrypted => "data"

def isTextual : DetailKind → Bool
  | .text | .summary => true
  | .encrypted => false

end DetailKind

/-- Classify an entry by its `type` tag, in both dialects. -/
def classify (entry : Json) : Option DetailKind :=
  match entry.typeTag with
  | some "reasoning.text" | some "text" => some .text
  | some "reasoning.summary" | some "summary" => some .summary
  | some "reasoning.encrypted" | some "encrypted" => some .encrypted
  | _ => none

/-- The text or summary payloads of entries, concatenated. -/
def displayText (entries : List Json) : String :=
  String.join (entries.filterMap fun entry =>
    match classify entry with
    | some kind => if kind.isTextual then (entry.get kind.payloadKey).bind Json.asStr else none
    | none => none)

/-- Lower one persisted entry. A bare entry loses its stream-only `index`; an
entry without a `type` is none. -/
def lowerEntry (entry : Json) : Option Json :=
  match entry.typeTag with
  | none => none
  | some ty =>
      if (stripPrefix "reasoning." ty).isSome || (classify entry).isNone then some entry
      else some (entry.remove "index")

/-- Lower a persisted details artifact into the `reasoning_details` array. -/
def detailsWireValue (lib : WireLib) (bytes : Bytes) : List Json :=
  if maxReasoningBytes < bytes.length then []
  else
    match (lib.fromSlice bytes).bind Json.asArray with
    | none => []
    | some entries => entries.filterMap lowerEntry

/-- The display text of a persisted details payload, for a scalar route. -/
def detailsDisplayText (lib : WireLib) (bytes : Bytes) : Option String :=
  if maxReasoningBytes < bytes.length then none
  else
    match (lib.fromSlice bytes).bind Json.asArray with
    | none => none
    | some entries =>
        let text := displayText entries
        if text = "" then none else some text

end Choreographr.Protocols
