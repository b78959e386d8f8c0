import Choreographr.Lib.Utf8
import Choreographr.Tools.Sanitize

/-!
# Streamed shell output

The two pipes of a child are drained line by line into one channel. What comes out of it is
escaped, streamed to the client under a byte budget, and kept as the body of the record.
-/

namespace Choreographr.Tools

open Lib

variable (u : UnicodeTables)

/-! ## Lines -/

def maxPendingLineBytes : Nat := 16 * 1024

/-- The continuation bytes that a first byte declares. -/
def expectedContinuations (lead : UInt8) : Nat :=
  if 0xc0 ≤ lead.toNat ∧ lead.toNat ≤ 0xdf then 1
  else if 0xe0 ≤ lead.toNat ∧ lead.toNat ≤ 0xef then 2
  else if 0xf0 ≤ lead.toNat ∧ lead.toNat ≤ 0xf7 then 3
  else 0

/-- The bytes of a character that is not finished, walked to from the end of the buffer. -/
def unfinishedLen (back : List UInt8) : Nat :=
  let continuations := (back.takeWhile isContinuation).length
  match back.drop continuations with
  | lead :: _ => if continuations < expectedContinuations lead then continuations + 1 else 0
  | [] => 0

/-- How much of the end of the buffer is held back: a CR, and a character that is not finished. -/
def partialTailLen (pending : List UInt8) : Nat :=
  let cr := if pending.getLast? = some 0x0d then 1 else 0
  unfinishedLen (pending.reverse.drop cr) + cr

/-- The bytes of the line that is not finished, and the lines that were forwarded. -/
structure LineBuffer where
  pending : List UInt8
  lines : List (List UInt8)

def flushPartialLine (s : LineBuffer) : LineBuffer :=
  let split := s.pending.length - partialTailLen s.pending
  { pending := s.pending.drop split, lines := s.lines ++ [s.pending.take split] }

/-- One byte of a chunk. -/
def forwardByte (s : LineBuffer) (b : UInt8) : LineBuffer :=
  let folded :=
    if b = 0x0a ∧ s.pending.getLast? = some 0x0d then s.pending.dropLast else s.pending
  let pending := folded ++ [b]
  if b = 0x0a then { pending := [], lines := s.lines ++ [pending] }
  else if maxPendingLineBytes ≤ pending.length then flushPartialLine { s with pending }
  else { s with pending }

def forwardCompleteLines (s : LineBuffer) (chunk : List UInt8) : LineBuffer :=
  chunk.foldl forwardByte s

/-- `spawn_line_drain`: the lines of a pipe by the reads that deliver it. -/
def lineDrain (reads : List (List UInt8)) : List (List UInt8) :=
  let s := reads.foldl forwardCompleteLines ⟨[], []⟩
  if s.pending.isEmpty then s.lines else s.lines ++ [s.pending]

/-- The orders in which the lines of two drains come out of the merge channel. -/
inductive Merges {α : Type} : List α → List α → List α → Prop
  | done : Merges [] [] []
  | left {x : α} {xs ys zs : List α} : Merges xs ys zs → Merges (x :: xs) ys (x :: zs)
  | right {y : α} {xs ys zs : List α} : Merges xs ys zs → Merges xs (y :: ys) (y :: zs)

/-! ## The byte budget of a stream -/

structure ByteBudget where
  limit : Nat
  used : Nat
  truncated : Bool
  markerSent : Bool

namespace ByteBudget

def new (limit : Nat) : ByteBudget := ⟨limit, 0, false, false⟩

def fit (b : ByteBudget) (len : Nat) : ByteBudget × Nat :=
  if b.limit ≤ b.used then ({ b with truncated := true }, 0)
  else
    let remaining := b.limit - b.used
    if remaining < len then ({ b with used := b.limit, truncated := true }, remaining)
    else ({ b with used := b.used + len }, len)

def takeMarker (b : ByteBudget) : ByteBudget × Option (List Char) :=
  if b.truncated && !b.markerSent then ({ b with markerSent := true }, some truncationSuffix)
  else (b, none)

end ByteBudget

/-- Whether the client's channel takes a chunk, by the chunks that it took before. It does not
when the tool is aborted while the channel is full, or when the client is gone. -/
abbrev StreamChannel := List (List UInt8) → Bool

/-- The budget, and the chunks that were sent. -/
structure StreamByteCap where
  budget : ByteBudget
  sent : List (List UInt8)

namespace StreamByteCap

def new (limit : Nat) : StreamByteCap := ⟨ByteBudget.new limit, []⟩

def forward (s : StreamByteCap) (channel : StreamChannel) (bytes : List UInt8) :
    StreamByteCap × Bool :=
  if channel s.sent then ({ s with sent := s.sent ++ [bytes] }, true) else (s, false)

/-- The chunk as far as it fits, and the marker where the budget is crossed. The result tells
whether to go on. -/
def push (s : StreamByteCap) (channel : StreamChannel) (chunk out : List UInt8) :
    StreamByteCap × List UInt8 × Bool :=
  let n := (s.budget.fit chunk.length).2
  let fitted := chunk.take n
  let t : StreamByteCap := { s with budget := (s.budget.fit chunk.length).1 }
  let t' := if 0 < n then t.forward channel fitted else (t, true)
  if t'.2 then
    let out' := if 0 < n then out ++ fitted else out
    let marked : StreamByteCap := { t'.1 with budget := t'.1.budget.takeMarker.1 }
    match t'.1.budget.takeMarker.2 with
    | none => (marked, out', true)
    | some marker =>
        let t'' := marked.forward channel (encode marker)
        if t''.2 then (t''.1, out' ++ encode marker, true) else (t''.1, out', false)
  else (t'.1, out, false)

end StreamByteCap

/-- The merger thread of `spawn_with_streaming`: every line is escaped before it is charged. -/
def mergeLines (channel : StreamChannel) (s : StreamByteCap) (full : List UInt8) :
    List (List UInt8) → StreamByteCap × List UInt8
  | [] => (s, full)
  | line :: rest =>
      let escaped := sanitizeTranscript u (lossyText line)
      let next := s.push channel (encode escaped) full
      if next.2.2 then mergeLines channel next.1 next.2.1 rest else (next.1, next.2.1)

/-! ## The record -/

def shellHeader (displayCmd : List Char) : List Char := "$ ".toList ++ displayCmd ++ ['\n']

def shellOutputFramingReservation (displayCmd : List Char) : Nat :=
  byteLen (sanitizeTranscript u (shellHeader displayCmd)) +
    byteLen "\n\nExit code: -2147483648".toList + 2 * byteLen truncationSuffix

/-- An `i32` as `format!` writes it. -/
def showInt (n : Int) : List Char :=
  if n < 0 then '-' :: Nat.toDigits 10 n.natAbs else Nat.toDigits 10 n.natAbs

structure ShellOutput where
  stdout : List UInt8
  stderr : List UInt8
  /-- `status.code()` -/
  code : Option Int32

/-- `status.code().unwrap_or(-1)` -/
def exitCode (code : Option Int32) : Int := (code.getD (-1)).toInt

def formatShellOutput (displayCmd : List Char) (output : ShellOutput) (timeoutMs : Nat)
    (wasKilled : Bool) : List Char :=
  if wasKilled then
    finishToolOutputSanitized u ("$ ".toList ++ displayCmd)
      (some ("\n[command timed out after ".toList ++ Nat.toDigits 10 timeoutMs ++
        "ms]\n\nExit code: -1".toList))
  else
    let combined :=
      if output.stderr.isEmpty then lossyText output.stdout
      else lossyText (output.stdout ++ output.stderr)
    finishToolOutputSanitized u (shellHeader displayCmd ++ combined)
      (some ("\nExit code: ".toList ++ showInt (exitCode output.code)))

/-- The chunks that the client is sent, and the body that is kept. -/
def spawnWithStreaming (channel : StreamChannel) (framing : Nat) (lines : List (List UInt8)) :
    StreamByteCap × List UInt8 :=
  mergeLines u channel (.new (maxToolOutputBytes - framing)) [] lines

/-- `run_shell_streaming` of a child that was not killed: the chunks sent, and the record. -/
def runShellStreaming (channel : StreamChannel) (displayCmd : List Char)
    (lines : List (List UInt8)) (code : Option Int32) (timeoutMs : Nat) :
    List (List UInt8) × List Char :=
  let streamed := spawnWithStreaming u channel (shellOutputFramingReservation u displayCmd) lines
  (streamed.1.sent, formatShellOutput u displayCmd ⟨streamed.2, [], code⟩ timeoutMs false)

/-- The text that a client gets of the chunks, each decoded for itself. -/
def clientText (chunks : List (List UInt8)) : List Char := chunks.flatMap lossyText

end Choreographr.Tools
