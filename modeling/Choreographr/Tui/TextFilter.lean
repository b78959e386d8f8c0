import Choreographr.Tools.Sanitize

/-!
# The terminal filter

One scan makes untrusted text safe to measure and to draw: control and format characters are
escaped, a line break is a single newline, and tabs become spaces. The form for an ANSI parser
keeps complete colour sequences. Text bound for the input buffer has its control characters
dropped instead. The width tables belong to a crate of their own and are a parameter.
-/

namespace Choreographr.Tui

open Lib Tools

/-- `UnicodeWidthChar::width` -/
structure CharWidths where
  width : Char → Option Nat
  /-- A printable ASCII character is drawn in one column. -/
  ascii : ∀ c, 0x20 ≤ c.toNat → c.toNat ≤ 0x7e → width c = some 1

variable (u : UnicodeTables) (w : CharWidths)

/-! ## Scans -/

/-- What one turn of a scan puts out, and where it goes on. -/
structure Scanned (σ : Type) (text : List Char) where
  out : List Char
  state : σ
  rest : List Char
  suffix : rest <:+ text

/-- The loop over the characters, each with what is behind it. -/
def scan {σ : Type} (step : σ → Char → (text : List Char) → Scanned σ text) (s : σ) :
    List Char → List Char
  | [] => []
  | c :: text => (step s c text).out ++ scan step (step s c text).state (step s c text).rest
termination_by text => text.length
decreasing_by exact Nat.lt_succ_of_le (step s c text).suffix.length_le

/-! ## One character -/

def esc : Char := '\x1b'

def tabStop : Nat := 4

def terminalKeeps (c : Char) : Bool :=
  c == '\t' || c == '\n' || (c.toNat < 128 && (0x20 ≤ c.toNat && c.toNat ≤ 0x7e)) ||
    (!decide (c.toNat < 128) && !isControl c && !isUnsafeUnicode u c)

def columns (c : Char) : Nat := (w.width c).getD 0

/-- The spaces from a column to the next tab stop. -/
def tabPad (col : Nat) : Nat := tabStop - col % tabStop

/-! ## Escape sequences -/

def isParam (c : Char) : Bool := 0x30 ≤ c.toNat && c.toNat ≤ 0x3f

def isFinal (c : Char) : Bool := 0x40 ≤ c.toNat && c.toNat ≤ 0x7e

/-- What the look-ahead behind `ESC [` consumes, and whether it is a colour sequence. -/
@[ext]
structure Csi where
  tail : List Char
  sgr : Bool
  rest : List Char

def readCsi : List Char → Csi
  | [] => ⟨[], false, []⟩
  | n :: rest =>
      if isParam n then
        let csi := readCsi rest
        ⟨n :: csi.tail, csi.sgr, csi.rest⟩
      else if isFinal n then ⟨[n], n == 'm', rest⟩
      else ⟨[], false, n :: rest⟩

theorem readCsi_suffix (text : List Char) : (readCsi text).rest <:+ text := by
  induction text with
  | nil => exact List.suffix_refl []
  | cons n rest ih =>
    simp only [readCsi]
    split
    · exact ih.trans (List.suffix_cons n rest)
    split
    · exact List.suffix_cons n rest
    · exact List.suffix_refl _

/-! ## The display sinks -/

inductive SgrPolicy where
  | keep | escape
deriving DecidableEq

def escapedEsc : List Char := "\\u\x7b1b\x7d".toList

/-- The body of the loop; the state is the column within the current line. -/
def normalizeStep (sgrPolicy : SgrPolicy) (col : Nat) (c : Char) (text : List Char) :
    Scanned Nat text :=
  if c = '\r' ∧ text.head? = some '\n' then ⟨['\n'], 0, text.tail, List.tail_suffix text⟩
  else if c = esc ∧ sgrPolicy = .keep ∧ text.head? = some '[' then
    let csi := readCsi text.tail
    let tail := '[' :: csi.tail
    have hSuffix := (readCsi_suffix text.tail).trans (List.tail_suffix text)
    if csi.sgr then ⟨esc :: tail, col, csi.rest, hSuffix⟩
    else ⟨escapedEsc ++ tail, col + (6 + byteLen tail), csi.rest, hSuffix⟩
  else if c = '\t' then
    ⟨List.replicate (tabPad col) ' ', col + tabPad col, text, List.suffix_refl text⟩
  else if c = '\n' then ⟨['\n'], 0, text, List.suffix_refl text⟩
  else if terminalKeeps u c then ⟨[c], col + columns w c, text, List.suffix_refl text⟩
  else ⟨escapeDefault c, col + byteLen (escapeDefault c), text, List.suffix_refl text⟩

def normalizeImpl (sgrPolicy : SgrPolicy) (text : List Char) : List Char :=
  scan (normalizeStep u w sgrPolicy) 0 text

def normalizeAnsiText (text : List Char) : List Char := normalizeImpl u w .keep text

def normalizeDisplayText (text : List Char) : List Char :=
  if !text.contains '\t' && text.all (terminalKeeps u) then text
  else normalizeImpl u w .escape text

/-! ## The editing rule -/

def sanitizeStep (col : Nat) (c : Char) (text : List Char) : Scanned Nat text :=
  if c = '\r' then
    if text.head? = some '\n' then ⟨['\n'], 0, text.tail, List.tail_suffix text⟩
    else ⟨['\n'], 0, text, List.suffix_refl text⟩
  else if c = '\t' then
    ⟨List.replicate (tabPad col) ' ', col + tabPad col, text, List.suffix_refl text⟩
  else if c = '\n' then ⟨['\n'], 0, text, List.suffix_refl text⟩
  else if terminalKeeps u c then ⟨[c], col + columns w c, text, List.suffix_refl text⟩
  else ⟨[], col, text, List.suffix_refl text⟩

def sanitizePastedText (text : List Char) : List Char :=
  if !(text.contains '\t' || text.contains '\r') && text.all (terminalKeeps u) then text
  else scan (sanitizeStep u w) 0 text

/-! ## The two passes -/

/-- `reference_filter`: the scan without the tabs. -/
def filterStep (sgrPolicy : SgrPolicy) (_ : Unit) (c : Char) (text : List Char) :
    Scanned Unit text :=
  if c = '\r' ∧ text.head? = some '\n' then ⟨['\n'], (), text.tail, List.tail_suffix text⟩
  else if sgrPolicy = .keep ∧ c = esc ∧ text.head? = some '[' then
    let csi := readCsi text.tail
    have hSuffix := (readCsi_suffix text.tail).trans (List.tail_suffix text)
    if csi.sgr then ⟨esc :: '[' :: csi.tail, (), csi.rest, hSuffix⟩
    else ⟨escapedEsc ++ '[' :: csi.tail, (), csi.rest, hSuffix⟩
  else if terminalKeeps u c then ⟨[c], (), text, List.suffix_refl text⟩
  else ⟨escapeDefault c, (), text, List.suffix_refl text⟩

def referenceFilter (sgrPolicy : SgrPolicy) (text : List Char) : List Char :=
  scan (filterStep u sgrPolicy) () text

/-- A sequence up to its final byte, and what is behind it. -/
def copyCsi : List Char → List Char × List Char
  | [] => ([], [])
  | n :: rest => if isFinal n then ([n], rest) else (n :: (copyCsi rest).1, (copyCsi rest).2)

theorem copyCsi_suffix (text : List Char) : (copyCsi text).2 <:+ text := by
  induction text with
  | nil => exact List.suffix_refl []
  | cons n rest ih =>
    simp only [copyCsi]
    split
    · exact List.suffix_cons n rest
    · exact ih.trans (List.suffix_cons n rest)

/-- `reference_expand_tabs`: the tabs of a text that has been filtered. -/
def expandStep (col : Nat) (c : Char) (text : List Char) : Scanned Nat text :=
  if c = '\n' then ⟨['\n'], 0, text, List.suffix_refl text⟩
  else if c = '\t' then
    ⟨List.replicate (tabPad col) ' ', col + tabPad col, text, List.suffix_refl text⟩
  else if c = esc then
    if text.head? = some '[' then
      ⟨esc :: '[' :: (copyCsi text.tail).1, col, (copyCsi text.tail).2,
        (copyCsi_suffix text.tail).trans (List.tail_suffix text)⟩
    else ⟨[esc], col, text, List.suffix_refl text⟩
  else ⟨[c], col + columns w c, text, List.suffix_refl text⟩

def referenceExpandTabs (text : List Char) : List Char := scan (expandStep w) 0 text

def referenceNormalize (sgrPolicy : SgrPolicy) (text : List Char) : List Char :=
  referenceExpandTabs w (referenceFilter u sgrPolicy text)

end Choreographr.Tui
