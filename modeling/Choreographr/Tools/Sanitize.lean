import Choreographr.Lib.CharText

/-!
# Tool output: escaping and the byte budget

The characters that may hide or reorder text are escaped, and every output is cut at the shared
byte budget. A text is the list of its characters. The Unicode tables belong to a crate of their
own and are a parameter.
-/

namespace Choreographr.Tools

open Lib

/-- `get_general_category`, as far as it is asked: which characters are of category Cf. -/
structure UnicodeTables where
  isFormat : Char → Bool
  /-- No ASCII character is a format character. -/
  notAscii : ∀ c, isFormat c = true → 128 ≤ c.toNat

variable (u : UnicodeTables)

/-! ## The byte budget -/

def maxToolOutputBytes : Nat := 128 * 1024

def truncationSuffix : List Char := "\n...[truncated]".toList

def truncateToolOutputAt (content : List Char) (cap : Nat) : List Char :=
  if byteLen content ≤ cap then content else bytePrefix cap content ++ truncationSuffix

def truncateToolOutput (content : List Char) : List Char :=
  truncateToolOutputAt content maxToolOutputBytes

def finishToolOutput (body : List Char) : Option (List Char) → List Char
  | none => truncateToolOutput body
  | some marker =>
      let tail := '\n' :: marker
      let bodyCap := maxToolOutputBytes - (byteLen tail + byteLen truncationSuffix)
      truncateToolOutputAt body bodyCap ++ tail

/-! ## Escaping -/

def isNonJoinerFormatChar (c : Char) : Bool :=
  u.isFormat c && !(c.toNat == 0x200c || c.toNat == 0x200d)

def isUnsafeUnicode (c : Char) : Bool :=
  c.toNat == 0x2028 || c.toNat == 0x2029 || isNonJoinerFormatChar u c

/-- `char::is_control`: category Cc. -/
def isControl (c : Char) : Bool := c.toNat < 0x20 || (0x7f ≤ c.toNat && c.toNat < 0xa0)

/-- `char::escape_default` -/
def escapeDefault (c : Char) : List Char :=
  if c = '\t' then "\\t".toList
  else if c = '\r' then "\\r".toList
  else if c = '\n' then "\\n".toList
  -- The two quotes and the backslash.
  else if c.toNat = 0x27 ∨ c.toNat = 0x22 ∨ c.toNat = 0x5c then ['\\', c]
  else if 0x20 ≤ c.toNat ∧ c.toNat ≤ 0x7e then [c]
  else "\\u\x7b".toList ++ Nat.toDigits 16 c.toNat ++ "\x7d".toList

def isPlainAscii (text : List Char) (keepTabs : Bool) : Bool :=
  text.all fun c => (c == '\t' && keepTabs) || (0x20 ≤ c.toNat && c.toNat ≤ 0x7e)

def sanitizeKeeps (c : Char) (keepTabs : Bool) : Bool :=
  if c.toNat < 128 then (c == '\t' && keepTabs) || (0x20 ≤ c.toNat && c.toNat ≤ 0x7e)
  else !isControl c && !isUnsafeUnicode u c

def sanitizeText (text : List Char) (keepTabs : Bool) : List Char :=
  if isPlainAscii text keepTabs then text
  else text.flatMap fun c => if sanitizeKeeps u c keepTabs then [c] else escapeDefault c

def sanitizeTextLen (text : List Char) (keepTabs : Bool) : Nat :=
  if isPlainAscii text keepTabs then byteLen text
  else (text.map fun c =>
    if sanitizeKeeps u c keepTabs then c.utf8Size else (escapeDefault c).length).sum

def sanitizeName (name : List Char) : List Char := sanitizeText u name false

def sanitizeContent (content : List Char) : List Char := sanitizeText u content true

def sanitizeTranscript (text : List Char) : List Char :=
  if text.all fun c =>
      c.toNat < 128 && (0x20 ≤ c.toNat || c == '\n' || c == '\t' || c == '\r') then text
  else text.flatMap fun c => if isNonJoinerFormatChar u c then escapeDefault c else [c]

def finishToolOutputSanitized (body : List Char) (marker : Option (List Char)) : List Char :=
  finishToolOutput (sanitizeTranscript u body) marker

/-- What `record_tool_completion` makes of the content of an output. -/
def recordedContent (content : List Char) : List Char :=
  truncateToolOutput (sanitizeTranscript u content)

/-- `truncation_marker` -/
def truncationMarker (truncated : Bool) (cap : Nat) (noun : List Char) : Option (List Char) :=
  if truncated then
    some ("...[truncated at ".toList ++ Nat.toDigits 10 cap ++ " ".toList ++ noun ++ "]".toList)
  else none

end Choreographr.Tools
