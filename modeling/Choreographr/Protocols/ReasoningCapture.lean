import Choreographr.Lib.OrdMap
import Choreographr.Protocols.ReasoningDetails
import Choreographr.Protocols.TurnResult
import Mathlib.Data.String.Basic

/-!
# Capturing reasoning details

`DetailsStore` folds the `reasoning_details` values of a turn into the array the
next request may replay. A streamed block arrives in fragments: a textual entry
continues the newest entry of its slot, which is its kind with its `index` (or
with none), unless the two entries state different identities. The store counts
the bytes of everything that arrives and gives the array up past the cap.
-/

namespace Choreographr.Protocols

open Session Lib

/-! ## Entries -/

/-- `Map::insert` on an object: keys stay in order, an old value is replaced. -/
def Json.insert (v : Json) (key : String) (value : Json) : Json :=
  match v with
  | .obj fields => .obj (OrdMap.insertEntry key value fields)
  | v => v

/-- The stream slot number of an entry. -/
def entryIndex (entry : Json) : Option Nat := (entry.get "index").bind Json.asU64

/-- The nonempty text under a key. -/
def statedText (entry : Json) (key : String) : Option String :=
  ((entry.get key).bind Json.asStr).filter (· ≠ "")

/-- Both entries state the field, with different texts. -/
def statedValuesDiffer (existing incoming : Json) (key : String) : Bool :=
  match statedText existing key, statedText incoming key with
  | some a, some b => a ≠ b
  | _, _ => false

/-- `incoming` may be merged into `existing`. -/
def isContinuation (existing incoming : Json) (sameDelta : Bool) : Bool :=
  if ["id", "format", "signature"].any (statedValuesDiffer existing incoming) then false
  else
    match entryIndex existing, entryIndex incoming with
    | some a, some b => a = b
    | none, none => !sameDelta
    | _, _ => false

/-- The provider has not given the field a value yet: no key, `null` or an empty
text. -/
def isUnstated : Option Json → Bool
  | none | some .null => true
  | some (.str text) => text = ""
  | _ => false

/-- The text a fragment adds to its block. -/
def payloadText (entry : Json) (key : String) : String :=
  ((entry.get key).bind Json.asStr).getD ""

/-- Append the payload; a payload that is no text is replaced. -/
def appendPayload (existing incoming : Json) (key : String) : Json :=
  existing.insert key (.str (payloadText existing key ++ payloadText incoming key))

/-- Carry a field over if the accumulated entry does not state it. -/
def graftField (key : String) (existing : Json) (field : String × Json) : Json :=
  if field.1 = key then existing
  else if isUnstated (existing.get field.1) then existing.insert field.1 field.2
  else existing

/-- Merge a fragment into the accumulated entry of its block. -/
def mergeTextual (existing incoming : Json) (key : String) : Json :=
  match existing with
  | .obj _ =>
      let appended := appendPayload existing incoming key
      match incoming with
      | .obj fields => fields.foldl (graftField key) appended
      | _ => appended
  | existing => existing

/-! ## The store -/

/-- The slot of a textual entry. The source keeps one map for entries with an
index and one for those without. -/
abbrev Slot := DetailKind × Option Nat

structure DetailsStore where
  entries : List Json := []
  /-- The delta each entry was stored in. -/
  entryDelta : List Nat := []
  /-- The position of the entry each slot is assembling, newest first. -/
  slots : List (Slot × Nat) := []
  delta : Nat := 0
  /-- Bytes of all entries folded in, counted before merging. -/
  bytes : Nat := 0
  overflowed : Bool := false

namespace DetailsStore

/-- Store an entry and, for a textual kind, point its slot at it. -/
def store (s : DetailsStore) (entry : Json) (kind : Option DetailKind) : DetailsStore :=
  { s with
    entries := s.entries ++ [entry]
    entryDelta := s.entryDelta ++ [s.delta]
    slots :=
      match kind.filter DetailKind.isTextual with
      | some kind => ((kind, entryIndex entry), s.entries.length) :: s.slots
      | none => s.slots }

/-- The position of the stored entry that `entry` continues. -/
def continuation (s : DetailsStore) (kind : DetailKind) (entry : Json) : Option Nat :=
  match s.slots.lookup (kind, entryIndex entry) with
  | none => none
  | some position =>
      match s.entries[position]? with
      | none => none
      | some existing =>
          let sameDelta := decide (s.entryDelta[position]? = some s.delta)
          if isContinuation existing entry sameDelta ∧ classify existing = some kind then
            some position
          else none

/-- Where an entry within the cap goes: into the block it continues, or behind
the others. -/
def place (s : DetailsStore) (entry : Json) : DetailsStore :=
  match classify entry with
  | none => s.store entry none
  | some kind =>
      if kind.isTextual then
        match s.continuation kind entry with
        | some position =>
            { s with
              entries := s.entries.modify position fun existing =>
                mergeTextual existing entry kind.payloadKey }
        | none => s.store entry (some kind)
      else s.store entry (some kind)

/-- Fold one entry. An object without a type is no entry; past the cap nothing
more is stored. -/
def pushEntry (lib : JsonLib) (s : DetailsStore) (entry : Json) : DetailsStore :=
  if entry.typeTag.isNone || s.overflowed then s
  else
    let bytes := min (s.bytes + (lib.toVec entry).length) usizeMax
    if maxReasoningBytes < bytes then { s with bytes := bytes, overflowed := true }
    else { s with bytes := bytes }.place entry

/-- The entries of a streamed value: an array, one entry, or either of them
encoded once more as text. -/
def valueEntries (lib : JsonLib) : Json → List Json
  | .arr entries => entries
  | .obj fields => [.obj fields]
  | .str text =>
      match lib.fromStr text with
      | some (.arr entries) => entries
      | some (.obj fields) => [.obj fields]
      | _ => []
  | _ => []

/-- Fold one value. Every call is one delta. -/
def push (lib : JsonLib) (s : DetailsStore) (raw : Json) : DetailsStore :=
  (valueEntries lib raw).foldl (pushEntry lib) { s with delta := s.delta + 1 }

/-- The replay payload, unless there is none or it is over the cap. The array is
measured again, with its brackets and commas. -/
def finish (lib : JsonLib) (s : DetailsStore) : Option ReasoningArtifact :=
  if s.overflowed || s.entries.isEmpty then none
  else
    let bytes := lib.toVec (.arr s.entries)
    if maxReasoningBytes < bytes.length then none
    else some (.chatReasoning .reasoningDetails bytes)

end DetailsStore

/-- The display text of one entry. -/
def displayFragment (entry : Json) : Option String :=
  match classify entry with
  | some kind =>
      if kind.isTextual then ((entry.get kind.payloadKey).bind Json.asStr).filter (· ≠ "")
      else none
  | none => none

end Choreographr.Protocols
