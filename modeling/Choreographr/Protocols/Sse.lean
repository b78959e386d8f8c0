import Choreographr.Protocols.Values

/-!
# The server-sent event reader

`SseReader` turns the bytes of a response body into event payloads. The body
arrives as a list of reads, each with the bytes that one call of
`BufReader::read` copied into the 4096-byte buffer; the end of the list, or a
read of no bytes, is the end of the stream. `SseReader.events` is the loop every
caller runs: take the next event until there is none or the reader fails.

`streamEvents` says what the events of a whole stream are, without a buffer:
the stream is cut into lines, the lines into events at the blank ones, and each
event has the payload `buildSseEvent` reads from its lines.
-/

namespace Choreographr.Protocols

open Session

def newline : UInt8 := 10
def carriageReturn : UInt8 := 13

/-- Hard ceiling on one event's accumulated bytes. -/
def maxSseEventBytes : Nat := 8 * 1024 * 1024

/-- The size of the buffer that one read fills. -/
def readBufferBytes : Nat := 4096

/-- An `io::Error` of the reader, always of kind `InvalidData`: a
`FromUtf8Error` with the refused bytes, or a text of the reader's own. -/
inductive ReadError where
  | fromUtf8 (bytes : Bytes)
  | text (message : String)
deriving DecidableEq

/-- The error returned when one event exceeds `maxSseEventBytes`. -/
def eventTooLarge (observed : Nat) : ReadError :=
  .text s!"sse event exceeds {maxSseEventBytes} bytes (saw {observed})"

/-- `String::from_utf8`. -/
def fromUtf8 (bytes : Bytes) : Except ReadError String :=
  match strFromUtf8 bytes with
  | some text => .ok text
  | none => .error (.fromUtf8 bytes)

/-- `Vec::pop` of the last byte when it is `b`. -/
def popIf (b : UInt8) (line : Bytes) : Bytes :=
  if line.getLast? = some b then line.dropLast else line

/-- The payload of an event: its `data:` fields, one a line, or nothing when
they are empty. The source clears the lines; here the callers do. -/
def buildSseEvent (eventLines : List String) : Option String :=
  let data := "\n".intercalate ((eventLines.filterMap (stripPrefix "data:")).map trimStart)
  if data = "" then none else some data

/-! ## The reader -/

structure SseReader where
  pending : Bytes
  /-- Leading bytes of `pending` already known to hold no newline. -/
  scanned : Nat
  eventLines : List String
  /-- Running byte total of `eventLines`. -/
  eventBytes : Nat
  finished : Bool

namespace SseReader

def fromReader : SseReader := ⟨[], 0, [], 0, false⟩

/-- What a call returns: an event, no event, or an error. -/
abbrev Outcome := Except ReadError (Option String)

/-- Take the first complete line off `pending`, without its line end. The search
resumes at `scanned`. -/
def takeLine (s : SseReader) : Option (Bytes × SseReader) :=
  match (s.pending.drop s.scanned).findIdx? (· == newline) with
  | none => none
  | some offset =>
      let taken := s.scanned + offset + 1
      some (popIf carriageReturn (popIf newline (s.pending.take taken)),
        { s with pending := s.pending.drop taken, scanned := 0 })

theorem takeLine_shrinks {s s' : SseReader} {line : Bytes} (h : s.takeLine = some (line, s')) :
    s'.pending.length < s.pending.length := by
  rw [takeLine] at h
  split at h
  · cases h
  · rename_i offset hFind
    cases h
    have hLong := (List.findIdx?_eq_some_iff_getElem.mp hFind).1
    simp only [List.length_drop] at hLong ⊢
    omega

/-- Take complete lines off `pending` until one of them ends an event. -/
def drainCompleteEvent (s : SseReader) : Outcome × SseReader :=
  match h : s.takeLine with
  | none => (.ok none, { s with scanned := s.pending.length })
  | some (line, s') =>
      have := takeLine_shrinks h
      if line = [] then
        match buildSseEvent s'.eventLines with
        | some event =>
            if event = "[DONE]" then
              (.ok none, { s' with eventLines := [], eventBytes := 0, finished := true })
            else (.ok (some event), { s' with eventLines := [], eventBytes := 0 })
        | none => drainCompleteEvent { s' with eventLines := [], eventBytes := 0 }
      else
        match fromUtf8 line with
        | .error e => (.error e, s')
        | .ok text =>
            let eventBytes := min (s'.eventBytes + text.utf8ByteSize) usizeMax
            if maxSseEventBytes < eventBytes then
              (.error (eventTooLarge eventBytes), { s' with eventBytes := eventBytes })
            else
              drainCompleteEvent
                { s' with eventBytes := eventBytes, eventLines := s'.eventLines ++ [text] }
termination_by s.pending.length

/-- The event whose blank line never came. -/
def finishEvent (s : SseReader) : Option String × SseReader :=
  match buildSseEvent s.eventLines with
  | none => (none, { s with eventLines := [] })
  | some event =>
      (if event = "[DONE]" then none else some event, { s with eventLines := [], eventBytes := 0 })

/-- A read of no bytes: the pending bytes are the last line. -/
def endOfStream (s : SseReader) : Outcome × SseReader :=
  if s.pending = [] then
    let r := finishEvent { s with finished := true, scanned := 0 }
    (.ok r.1, r.2)
  else
    match fromUtf8 s.pending with
    | .error e => (.error e, { s with finished := true, pending := [] })
    | .ok line =>
        let r := finishEvent
          { s with finished := true, pending := [], scanned := 0,
                   eventLines := s.eventLines ++ [trimEndMatches '\r' line] }
        (.ok r.1, r.2)

/-- The loop of `next_event`: drain, then read. -/
def nextEventLoop (s : SseReader) (reads : List Bytes) : Outcome × SseReader × List Bytes :=
  match s.drainCompleteEvent, reads with
  | (.error e, s'), reads => (.error e, s', reads)
  | (.ok (some event), s'), reads => (.ok (some event), s', reads)
  | (.ok none, s'), [] => let r := s'.endOfStream; (r.1, r.2, [])
  | (.ok none, s'), [] :: reads => let r := s'.endOfStream; (r.1, r.2, reads)
  | (.ok none, s'), (b :: bytes) :: reads =>
      let pending := s'.pending ++ b :: bytes
      if maxSseEventBytes < pending.length then
        (.error (eventTooLarge pending.length), { s' with pending := pending }, reads)
      else nextEventLoop { s' with pending := pending } reads
termination_by reads.length

def nextEvent (s : SseReader) (reads : List Bytes) : Outcome × SseReader × List Bytes :=
  if s.finished then (.ok none, s, reads) else s.nextEventLoop reads

theorem drainCompleteEvent_shrinks (s : SseReader) :
    s.drainCompleteEvent.2.pending.length ≤ s.pending.length ∧
      ∀ event, s.drainCompleteEvent.1 = .ok (some event) →
        s.drainCompleteEvent.2.pending.length < s.pending.length := by
  fun_induction drainCompleteEvent s with
  | case1 s => exact ⟨le_rfl, fun event hEvent => by cases hEvent⟩
  | case2 s s' hTake hLess => exact ⟨hLess.le, fun event hEvent => by cases hEvent⟩
  | case3 s s' event hBuild hDone hTake hLess => exact ⟨hLess.le, fun _ _ => hLess⟩
  | case4 s s' hBuild hTake hLess ih =>
    exact ⟨ih.1.trans hLess.le, fun event hEvent => (ih.2 event hEvent).trans hLess⟩
  | case5 s line s' hTake hLess => exact ⟨hLess.le, fun _ _ => hLess⟩
  | case6 s line s' hTake hLess => exact ⟨hLess.le, fun _ _ => hLess⟩
  | case7 s line s' hTake hLess hLine text hText bytes hBytes ih =>
    exact ⟨ih.1.trans hLess.le, fun event hEvent => (ih.2 event hEvent).trans hLess⟩

theorem endOfStream_ends (s : SseReader) :
    s.endOfStream.2.pending = [] ∧ s.endOfStream.2.finished = true := by
  have hFinish : ∀ s : SseReader,
      s.finishEvent.2.pending = s.pending ∧ s.finishEvent.2.finished = s.finished := by
    intro s
    rw [finishEvent]
    split <;> exact ⟨rfl, rfl⟩
  rw [endOfStream]
  split
  · rename_i hPending
    exact ⟨(hFinish _).1.trans hPending, (hFinish _).2⟩
  · split
    · exact ⟨rfl, rfl⟩
    · exact hFinish _

/-- What the reader has left to do: the bytes not yet taken, and the end of the
stream. -/
def remaining (s : SseReader) (reads : List Bytes) : Nat :=
  s.pending.length + reads.flatten.length + if s.finished then 0 else 1

theorem nextEventLoop_remaining (s : SseReader) (reads : List Bytes) (event : String)
    (hEvent : (s.nextEventLoop reads).1 = .ok (some event)) :
    (s.nextEventLoop reads).2.1.remaining (s.nextEventLoop reads).2.2 ≤
      s.pending.length + reads.flatten.length := by
  fun_induction nextEventLoop s reads with
  | case1 s e s' reads hDrain => cases hEvent
  | case2 s event s' reads hDrain =>
    have hLess := (drainCompleteEvent_shrinks s).2 event (by rw [hDrain])
    rw [hDrain] at hLess
    simp only [remaining] at hLess ⊢
    split <;> omega
  | case3 s s' hDrain r => simp [remaining, r, endOfStream_ends]
  | case4 s s' reads hDrain r => simp [remaining, r, endOfStream_ends]
  | case5 s s' b bytes reads hDrain pending hLong => cases hEvent
  | case6 s s' b bytes reads hDrain pending hLong ih =>
    have hLess := (drainCompleteEvent_shrinks s).1
    have hRest := ih hEvent
    rw [hDrain] at hLess
    simp only [pending, List.length_append, List.flatten_cons] at hRest hLess ⊢
    omega

theorem nextEvent_remaining {s : SseReader} {reads : List Bytes} {event : String}
    (hEvent : (s.nextEvent reads).1 = .ok (some event)) :
    (s.nextEvent reads).2.1.remaining (s.nextEvent reads).2.2 < s.remaining reads := by
  rw [nextEvent] at hEvent ⊢
  split at hEvent
  · cases hEvent
  · rename_i hFinished
    rw [if_neg hFinished, remaining.eq_1 s, if_neg hFinished]
    exact Nat.lt_succ_of_le (nextEventLoop_remaining s reads event hEvent)

/-- The callers' loop: every event up to the end of the stream or to the error
that is passed on. -/
def events (s : SseReader) (reads : List Bytes) : List String × Option ReadError :=
  match h : (s.nextEvent reads).1 with
  | .error e => ([], some e)
  | .ok none => ([], none)
  | .ok (some event) =>
      have := nextEvent_remaining h
      let r := events (s.nextEvent reads).2.1 (s.nextEvent reads).2.2
      (event :: r.1, r.2)
termination_by s.remaining reads

end SseReader

/-! ## The events of a whole stream -/

/-- The text of a line that ends in a newline, without a carriage return before
that newline. -/
def terminatedLine (line : Bytes) : Except ReadError String :=
  fromUtf8 (popIf carriageReturn line)

/-- The text of a line that the stream's end cuts off. -/
def lastLine (line : Bytes) : Except ReadError String :=
  (fromUtf8 line).map (trimEndMatches '\r')

/-- The lines of a stream, each with its text. -/
def streamLines (stream : Bytes) : List (Except ReadError String) :=
  let cut := stream.splitOn newline
  cut.dropLast.map terminatedLine ++ (cut.getLast?.filter (· ≠ [])).toList.map lastLine

def isBlank : Except ReadError String → Bool
  | .ok text => text = ""
  | .error _ => false

/-- Lines grouped into events: a blank line ends an event. -/
def eventGroups (lines : List (Except ReadError String)) : List (List (Except ReadError String)) :=
  lines.splitOnP isBlank

/-- The bytes of an event's lines, line ends not counted. -/
def eventSize (group : List (Except ReadError String)) : Nat :=
  (group.map fun line => line.toOption.elim 0 String.utf8ByteSize).sum

/-- The payloads of events in order, up to the first line that is not UTF-8. -/
def groupPayloads : List (List (Except ReadError String)) → List String × Option ReadError
  | [] => ([], none)
  | group :: rest =>
      match group.mapM id with
      | .error e => ([], some e)
      | .ok lines =>
          let r := groupPayloads rest
          ((buildSseEvent lines).toList ++ r.1, r.2)

/-- The payloads of the blank-line-separated events of a stream. -/
def streamEvents (stream : Bytes) : List String × Option ReadError :=
  groupPayloads (eventGroups (streamLines stream))

/-- A way of splitting a stream into reads. -/
structure Splits (stream : Bytes) (reads : List Bytes) : Prop where
  flatten : reads.flatten = stream
  nonempty : ∀ bytes ∈ reads, bytes ≠ []
  fits : ∀ bytes ∈ reads, bytes.length ≤ readBufferBytes

end Choreographr.Protocols
