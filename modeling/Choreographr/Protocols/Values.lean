import Mathlib.Algebra.GroupWithZero.Nat
import Mathlib.Algebra.Ring.Int.Defs
import Choreographr.Session.Types

/-!
# Text and JSON values

The standard-library text functions the adapters use, and the values of
`serde_json`. Parsing JSON and encoding base64 are done by libraries outside the
repository; `WireLib` stands for them.
-/

namespace Choreographr.Protocols

open Session

/-- The largest `usize`. -/
def usizeMax : Nat := 2 ^ 64 - 1

/-! ## Text -/

/-- `str::from_utf8`. -/
def strFromUtf8 (bytes : Bytes) : Option String := String.fromUTF8? ⟨bytes.toArray⟩

/-- `str::strip_prefix`. -/
def stripPrefix (start text : String) : Option String :=
  if start.toList <+: text.toList then
    some (String.ofList (text.toList.drop start.toList.length))
  else none

/-- `str::trim_start`. -/
def trimStart (text : String) : String :=
  String.ofList (text.toList.dropWhile isWhitespace)

/-- `str::trim_end_matches` for one character. -/
def trimEndMatches (c : Char) (text : String) : String :=
  String.ofList (text.toList.reverse.dropWhile (· == c)).reverse

/-! ## JSON -/

/-- A `serde_json::Value`. An object has each key once. -/
inductive Json where
  | null
  | bool (value : Bool)
  | int (value : Int)
  | float (text : String)
  | str (text : String)
  | arr (items : List Json)
  | obj (fields : List (String × Json))

namespace Json

/-- `Value::get` with a string key. -/
def get (v : Json) (key : String) : Option Json :=
  match v with
  | .obj fields => fields.lookup key
  | _ => none

/-- `Value::as_str`. -/
def asStr : Json → Option String
  | .str text => some text
  | _ => none

/-- `Value::as_array`. -/
def asArray : Json → Option (List Json)
  | .arr items => some items
  | _ => none

/-- `Value::as_u64`. -/
def asU64 : Json → Option Nat
  | .int value => if 0 ≤ value ∧ value < 2 ^ 64 then some value.toNat else none
  | _ => none

/-- `Map::remove` on an object; other values stay as they are. -/
def remove (v : Json) (key : String) : Json :=
  match v with
  | .obj fields => .obj (fields.filter fun field => field.1 ≠ key)
  | v => v

/-- The `type` tag of an entry or item. -/
def typeTag (v : Json) : Option String := (v.get "type").bind asStr

end Json

/-- What the adapters take from `serde_json` and `base64`. -/
structure WireLib where
  /-- `serde_json::from_slice::<Value>`. -/
  fromSlice : Bytes → Option Json
  /-- `base64::engine::general_purpose::STANDARD.encode`. -/
  base64Encode : Bytes → String

end Choreographr.Protocols
