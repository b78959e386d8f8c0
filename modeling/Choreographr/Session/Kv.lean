import Choreographr.Lib.ByteOrder
import Choreographr.Lib.OrdMap
import Choreographr.Session.Types

/-!
# The key-value store of a session

One database table holds the pairs of all sessions under the session id and the
key, in the order of the ids and then of the keys' bytes. Every operation builds
its own bounds for the range that it scans.
-/

namespace Choreographr.Session

open Lib

/-- A session id as the table keys it. -/
abbrev KvSession := Fin (2 ^ 64)

abbrev KvKey := KvSession ×ₗ ByteKey

/-- The table `session_kv`. -/
abbrev SessionKv := OrdMap KvKey Bytes

def kvKey (sessionId : KvSession) (key : String) : KvKey := toLex (sessionId, ⟨key⟩)

/-- The upper bound of a session's keys: the next id, or the id itself where there is
none. -/
def sessionRangeEnd (sessionId : KvSession) : KvSession :=
  if h : sessionId.val + 1 < 2 ^ 64 then ⟨sessionId.val + 1, h⟩ else sessionId

/-- The table in the database; a write transaction makes it when it opens it. -/
abbrev KvTable := Option SessionKv

def openForWrite (db : KvTable) : SessionKv := db.getD OrdMap.empty

/-- A read transaction opens no table that is not there. -/
def openForRead (db : KvTable) : Except String SessionKv :=
  match db with
  | some t => .ok t
  | none => .error "redb open session_kv: Table 'session_kv' does not exist"

def kvSet (db : KvTable) (sessionId : KvSession) (key : String) (value : Bytes) : KvTable :=
  some ((openForWrite db).insert (kvKey sessionId key) value)

def kvGet (db : KvTable) (sessionId : KvSession) (key : String) : Except String (Option Bytes) := do
  let t ← openForRead db
  return t.get? (kvKey sessionId key)

/-- Remove one key, and say whether it was there. -/
def kvDelete (db : KvTable) (sessionId : KvSession) (key : String) : KvTable × Bool :=
  let t := openForWrite db
  (some (t.erase (kvKey sessionId key)), (t.get? (kvKey sessionId key)).isSome)

/-- The range `[start, stop)` of a session; without `stop` to the end of its keys. -/
def kvRange (t : SessionKv) (sessionId : KvSession) (start : String) (stop : Option String) :
    SessionKv :=
  match stop with
  | some stop => t.range (kvKey sessionId start) (kvKey sessionId stop)
  | none => t.range (kvKey sessionId start) (kvKey (sessionRangeEnd sessionId) "")

/-- Remove the keys of a range, and count them. -/
def kvDeleteRange (db : KvTable) (sessionId : KvSession) (start : String)
    (stop : Option String) : KvTable × Nat :=
  let t := openForWrite db
  let keys := (kvRange t sessionId start stop).keys
  (some (keys.foldl OrdMap.erase t), keys.length)

def kvGetRange (db : KvTable) (sessionId : KvSession) (start : String)
    (stop : Option String) : Except String (List (String × Bytes)) := do
  let t ← openForRead db
  return (kvRange t sessionId start stop).entries.map fun e => ((ofLex e.1).2.text, e.2)

def kvList (db : KvTable) (sessionId : KvSession) (start stop : Option String) :
    Except String (List String) := do
  let t ← openForRead db
  let range :=
    match start, stop with
    | some start, some stop => t.range (kvKey sessionId start) (kvKey sessionId stop)
    | some start, none => t.range (kvKey sessionId start) (kvKey (sessionRangeEnd sessionId) "")
    | none, some stop => t.range (kvKey sessionId "") (kvKey sessionId stop)
    | none, none => t.range (kvKey sessionId "") (kvKey (sessionRangeEnd sessionId) "")
  return range.keys.map fun k => (ofLex k).2.text

/-- The upper bound of a scan for the keys that start with a text: the bytes of the text
and `0xFF`, which is no UTF-8, read as text with the replacement character. -/
def kvScanEnd (start : String) : String := start ++ "\uFFFD"

/-- Count the keys of a session, or those that start with a text. -/
def kvCount (db : KvTable) (sessionId : KvSession) (start : Option String) :
    Except String Nat := do
  let t ← openForRead db
  let range :=
    match start with
    | some start => t.range (kvKey sessionId start) (kvKey sessionId (kvScanEnd start))
    | none => t.range (kvKey sessionId "") (kvKey (sessionRangeEnd sessionId) "")
  return range.entries.length

/-! ## Runs -/

inductive KvCommand where
  | set (sessionId : KvSession) (key : String) (value : Bytes)
  | get (sessionId : KvSession) (key : String)
  | delete (sessionId : KvSession) (key : String)
  | deleteRange (sessionId : KvSession) (start : String) (stop : Option String)
  | getRange (sessionId : KvSession) (start : String) (stop : Option String)
  | list (sessionId : KvSession) (start stop : Option String)
  | count (sessionId : KvSession) (start : Option String)

inductive KvResult where
  | done
  | value (value : Option Bytes)
  | removed (found : Bool)
  | entries (entries : List (String × Bytes))
  | keys (keys : List String)
  | count (count : Nat)
deriving DecidableEq

def kvRun (db : KvTable) : KvCommand → KvTable × Except String KvResult
  | .set sessionId key value => (kvSet db sessionId key value, .ok .done)
  | .get sessionId key => (db, (kvGet db sessionId key).map .value)
  | .delete sessionId key =>
      ((kvDelete db sessionId key).1, .ok (.removed (kvDelete db sessionId key).2))
  | .deleteRange sessionId start stop =>
      ((kvDeleteRange db sessionId start stop).1,
        .ok (.count (kvDeleteRange db sessionId start stop).2))
  | .getRange sessionId start stop => (db, (kvGetRange db sessionId start stop).map .entries)
  | .list sessionId start stop => (db, (kvList db sessionId start stop).map .keys)
  | .count sessionId start => (db, (kvCount db sessionId start).map .count)

/-- The table after a sequence of operations on a new database. -/
def kvAfter (commands : List KvCommand) : KvTable :=
  commands.foldl (fun db command => (kvRun db command).1) none

end Choreographr.Session
