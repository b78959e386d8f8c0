import Choreographr.Protocols.Sse

/-!
# The reader and the whole stream

Splitting a stream into reads does not change what `SseReader` yields, except
through the size cap: the cap is checked against everything that is pending
after a read, and a read may bring the end of one line together with bytes of
the events behind it. `LinesFit` says when no read can cross the cap that way,
and then every splitting yields `streamEvents`. Where it fails, some splitting
ends in an error although every event is small enough.

Between two lines the reader is `reading L p`: the lines `L` of the current
event are taken, and `p` is pending. The lemmas `events_*` say what it does with
the next line, the next read and the end; `groupsFrom` is the rest of the whole
stream seen from there, and both are compared line by line.
-/

namespace Choreographr.Protocols

open Session

variable {s : SseReader} {bytes line rest : Bytes} {reads : List Bytes} {e : ReadError}
  {text : String} {n : Nat} (L : List String)

/-! ## Lines in the buffer -/

theorem popIf_append_self (b : UInt8) (line : Bytes) : popIf b (line ++ [b]) = line := by
  simp [popIf]

namespace SseReader

theorem takeLine_eq_none (h : newline ∉ s.pending) : s.takeLine = none := by
  have hFind : (s.pending.drop s.scanned).findIdx? (· == newline) = none := by
    rw [List.findIdx?_eq_none_iff]
    intro b hb
    have hMem := List.mem_of_mem_drop hb
    exact beq_false_of_ne fun hEq => h (hEq ▸ hMem)
  rw [takeLine, hFind]

theorem takeLine_of_line (hPending : s.pending = line ++ newline :: rest) (hLine : newline ∉ line)
    (hScanned : s.scanned ≤ line.length) :
    s.takeLine =
      some (popIf carriageReturn line, { s with pending := rest, scanned := 0 }) := by
  have hFind : (s.pending.drop s.scanned).findIdx? (· == newline) =
      some (line.length - s.scanned) := by
    rw [hPending, List.drop_append_of_le_length hScanned, List.findIdx?_append]
    have hNone : (line.drop s.scanned).findIdx? (· == newline) = none := by
      rw [List.findIdx?_eq_none_iff]
      intro b hb
      have hMem := List.mem_of_mem_drop hb
      exact beq_false_of_ne fun hEq => hLine (hEq ▸ hMem)
    simp [hNone, List.findIdx?_cons]
  have hTaken : s.scanned + (line.length - s.scanned) + 1 = line.length + 1 := by omega
  have hCut : s.pending = (line ++ [newline]) ++ rest := by simp [hPending]
  have hLength : line.length + 1 = (line ++ [newline]).length := by simp
  rw [takeLine, hFind]
  simp only [hTaken]
  rw [hCut, hLength, List.take_left, List.drop_left, popIf_append_self]

/-! ## The callers' loop, one call at a time -/

theorem events_of_error (h : (s.nextEvent reads).1 = .error e) : s.events reads = ([], some e) := by
  rw [events]
  split <;> simp_all

theorem events_of_none (h : (s.nextEvent reads).1 = .ok none) : s.events reads = ([], none) := by
  rw [events]
  split <;> simp_all

theorem events_of_some {event : String} (h : (s.nextEvent reads).1 = .ok (some event)) :
    s.events reads =
      (event :: ((s.nextEvent reads).2.1.events (s.nextEvent reads).2.2).1,
        ((s.nextEvent reads).2.1.events (s.nextEvent reads).2.2).2) := by
  rw [events]
  split <;> simp_all

theorem events_congr {s' : SseReader} {reads' : List Bytes}
    (h : s.nextEvent reads = s'.nextEvent reads') : s.events reads = s'.events reads' := by
  rcases hResult : (s.nextEvent reads).1 with e | _ | event
  · rw [events_of_error hResult, events_of_error (h ▸ hResult)]
  · rw [events_of_none hResult, events_of_none (h ▸ hResult)]
  · have hResult' : (s'.nextEvent reads').1 = .ok (some event) := h ▸ hResult
    rw [events_of_some hResult, events_of_some hResult', h]

variable {s' : SseReader}

theorem nextEvent_eq_loop (h : s.finished = false) : s.nextEvent reads = s.nextEventLoop reads := by
  rw [nextEvent, if_neg (by simp [h])]

theorem events_of_drain_error (hOpen : s.finished = false)
    (h : s.drainCompleteEvent = (.error e, s')) : s.events reads = ([], some e) := by
  apply events_of_error
  rw [nextEvent_eq_loop hOpen, nextEventLoop.eq_def, h]

theorem events_of_drain_event {event : String} (hOpen : s.finished = false)
    (h : s.drainCompleteEvent = (.ok (some event), s')) :
    s.events reads = (event :: (s'.events reads).1, (s'.events reads).2) := by
  have hNext : s.nextEvent reads = (.ok (some event), s', reads) := by
    rw [nextEvent_eq_loop hOpen, nextEventLoop.eq_def, h]
  rw [events_of_some (congrArg Prod.fst hNext), hNext]

theorem events_of_drain_end (hOpen : s.finished = false)
    (h : s.drainCompleteEvent = (.ok none, s')) {event : Option String}
    (hEnd : s'.endOfStream.1 = .ok event) : s.events [] = (event.toList, none) := by
  have hNext : s.nextEvent [] = (s'.endOfStream.1, s'.endOfStream.2, []) := by
    rw [nextEvent_eq_loop hOpen, nextEventLoop.eq_def, h]
  cases event with
  | none => exact events_of_none ((congrArg Prod.fst hNext).trans hEnd)
  | some event =>
    have hFinished : (s'.endOfStream.2.nextEvent []).1 = .ok none := by
      rw [nextEvent, if_pos (endOfStream_ends s').2]
    rw [events_of_some ((congrArg Prod.fst hNext).trans hEnd), hNext, events_of_none hFinished]
    rfl

theorem events_of_drain_end_error (hOpen : s.finished = false)
    (h : s.drainCompleteEvent = (.ok none, s')) (hEnd : s'.endOfStream.1 = .error e) :
    s.events [] = ([], some e) := by
  apply events_of_error
  rw [nextEvent_eq_loop hOpen, nextEventLoop.eq_def, h]
  exact hEnd

theorem events_of_drain_read (hOpen : s.finished = false)
    (h : s.drainCompleteEvent = (.ok none, s')) (hOpen' : s'.finished = false) (hBytes : bytes ≠ [])
    (hFits : (s'.pending ++ bytes).length ≤ maxSseEventBytes) :
    s.events (bytes :: reads) =
      { s' with pending := s'.pending ++ bytes }.events reads := by
  obtain ⟨b, bytes, rfl⟩ := List.exists_cons_of_ne_nil hBytes
  apply events_congr
  rw [nextEvent_eq_loop hOpen, nextEventLoop.eq_def, h, nextEvent_eq_loop (by exact hOpen')]
  exact if_neg (by omega)

theorem events_of_drain_overflow (hOpen : s.finished = false)
    (h : s.drainCompleteEvent = (.ok none, s')) (hBytes : bytes ≠ [])
    (hLong : maxSseEventBytes < (s'.pending ++ bytes).length) :
    s.events (bytes :: reads) = ([], some (eventTooLarge (s'.pending ++ bytes).length)) := by
  obtain ⟨b, bytes, rfl⟩ := List.exists_cons_of_ne_nil hBytes
  apply events_of_error
  rw [nextEvent_eq_loop hOpen, nextEventLoop.eq_def, h]
  simp only [if_pos hLong]

/-! ## What draining does with one line -/

theorem drain_of_none (h : s.takeLine = none) :
    s.drainCompleteEvent = (.ok none, { s with scanned := s.pending.length }) := by
  rw [drainCompleteEvent]
  split <;> simp_all

theorem drain_of_event {event : String} (h : s.takeLine = some ([], s'))
    (hBuild : buildSseEvent s'.eventLines = some event) (hDone : event ≠ "[DONE]") :
    s.drainCompleteEvent = (.ok (some event), { s' with eventLines := [], eventBytes := 0 }) := by
  rw [drainCompleteEvent]
  split <;> simp_all

theorem drain_of_no_event (h : s.takeLine = some ([], s'))
    (hBuild : buildSseEvent s'.eventLines = none) :
    s.drainCompleteEvent = { s' with eventLines := [], eventBytes := 0 }.drainCompleteEvent := by
  rw [drainCompleteEvent]
  split <;> simp_all

theorem drain_of_error (h : s.takeLine = some (line, s')) (hLine : line ≠ [])
    (hText : fromUtf8 line = .error e) : s.drainCompleteEvent = (.error e, s') := by
  rw [drainCompleteEvent]
  split <;> simp_all

theorem drain_of_large (h : s.takeLine = some (line, s')) (hLine : line ≠ [])
    (hText : fromUtf8 line = .ok text)
    (hBytes : min (s'.eventBytes + text.utf8ByteSize) usizeMax = n) (hLong : maxSseEventBytes < n) :
    s.drainCompleteEvent = (.error (eventTooLarge n), { s' with eventBytes := n }) := by
  rw [drainCompleteEvent]
  split <;> simp_all

theorem drain_of_text (h : s.takeLine = some (line, s')) (hLine : line ≠ [])
    (hText : fromUtf8 line = .ok text)
    (hBytes : min (s'.eventBytes + text.utf8ByteSize) usizeMax = n) (hFits : n ≤ maxSseEventBytes) :
    s.drainCompleteEvent =
      { s' with eventBytes := n, eventLines := s'.eventLines ++ [text] }.drainCompleteEvent := by
  rw [drainCompleteEvent]
  split <;> simp_all

theorem events_of_drain_eq (hOpen : s.finished = false) (hOpen' : s'.finished = false)
    (h : s.drainCompleteEvent = s'.drainCompleteEvent) : s.events reads = s'.events reads := by
  apply events_congr
  rw [nextEvent_eq_loop hOpen, nextEvent_eq_loop hOpen', nextEventLoop.eq_def, h,
    nextEventLoop.eq_def s']

/-! ## The reader between two lines -/

/-- The reader with the lines `L` of the current event taken and `p` pending, of
which `k` bytes are searched. -/
def reading (k : Nat) (L : List String) (p : Bytes) : SseReader :=
  ⟨p, k, L, (L.map String.utf8ByteSize).sum, false⟩

variable {k : Nat} {L : List String} {p : Bytes}

theorem reading_takeLine (hLine : newline ∉ line) (hScanned : k ≤ line.length) :
    (reading k L (line ++ newline :: rest)).takeLine =
      some (popIf carriageReturn line, reading 0 L rest) :=
  takeLine_of_line rfl hLine hScanned

theorem reading_drain (h : newline ∉ p) :
    (reading k L p).drainCompleteEvent = (.ok none, reading p.length L p) :=
  drain_of_none (takeLine_eq_none h)

theorem events_blank (hLine : newline ∉ line) (hScanned : k ≤ line.length)
    (hBlank : popIf carriageReturn line = []) (hDone : buildSseEvent L ≠ some "[DONE]") :
    (reading k L (line ++ newline :: rest)).events reads =
      ((buildSseEvent L).toList ++ ((reading 0 [] rest).events reads).1,
        ((reading 0 [] rest).events reads).2) := by
  have hTake : (reading k L (line ++ newline :: rest)).takeLine = some ([], reading 0 L rest) := by
    rw [reading_takeLine hLine hScanned, hBlank]
  cases hBuild : buildSseEvent L with
  | none => exact events_of_drain_eq rfl rfl (drain_of_no_event hTake hBuild)
  | some event =>
    have hEvent : event ≠ "[DONE]" := fun hEq => hDone (hEq ▸ hBuild)
    exact events_of_drain_event rfl (drain_of_event hTake hBuild hEvent)

theorem events_bad_line (hLine : newline ∉ line) (hScanned : k ≤ line.length)
    (hText : terminatedLine line = .error e) (hBlank : popIf carriageReturn line ≠ []) :
    (reading k L (line ++ newline :: rest)).events reads = ([], some e) :=
  events_of_drain_error rfl (drain_of_error (reading_takeLine hLine hScanned) hBlank hText)

theorem events_line (hLine : newline ∉ line) (hScanned : k ≤ line.length)
    (hText : terminatedLine line = .ok text) (hBlank : popIf carriageReturn line ≠ [])
    (hFits : ((L ++ [text]).map String.utf8ByteSize).sum ≤ maxSseEventBytes) :
    (reading k L (line ++ newline :: rest)).events reads =
      (reading 0 (L ++ [text]) rest).events reads := by
  have hBytes : min ((L.map String.utf8ByteSize).sum + text.utf8ByteSize) usizeMax =
      ((L ++ [text]).map String.utf8ByteSize).sum := by
    have hMax : maxSseEventBytes ≤ usizeMax := by decide
    simp only [List.map_append, List.sum_append, List.map_cons, List.map_nil, List.sum_cons,
      List.sum_nil, Nat.add_zero] at hFits ⊢
    omega
  exact events_of_drain_eq rfl rfl
    (drain_of_text (reading_takeLine hLine hScanned) hBlank hText hBytes hFits)

theorem events_large_line (hLine : newline ∉ line) (hScanned : k ≤ line.length)
    (hText : terminatedLine line = .ok text) (hBlank : popIf carriageReturn line ≠ [])
    (hLong : maxSseEventBytes < ((L ++ [text]).map String.utf8ByteSize).sum) :
    ∃ n, (reading k L (line ++ newline :: rest)).events reads = ([], some (eventTooLarge n)) := by
  have hBytes : maxSseEventBytes <
      min ((L.map String.utf8ByteSize).sum + text.utf8ByteSize) usizeMax := by
    have hMax : maxSseEventBytes < usizeMax := by decide
    simp only [List.map_append, List.sum_append, List.map_cons, List.map_nil, List.sum_cons,
      List.sum_nil, Nat.add_zero] at hLong
    omega
  exact ⟨_, events_of_drain_error rfl
    (drain_of_large (reading_takeLine hLine hScanned) hBlank hText rfl hBytes)⟩

theorem events_read (hPending : newline ∉ p) (hBytes : bytes ≠ [])
    (hFits : (p ++ bytes).length ≤ maxSseEventBytes) :
    (reading k L p).events (bytes :: reads) = (reading p.length L (p ++ bytes)).events reads :=
  events_of_drain_read rfl (reading_drain hPending) rfl hBytes hFits

theorem events_overflow (hPending : newline ∉ p) (hBytes : bytes ≠ [])
    (hLong : maxSseEventBytes < (p ++ bytes).length) :
    (reading k L p).events (bytes :: reads) =
      ([], some (eventTooLarge (p ++ bytes).length)) := by
  have hDrain := reading_drain (k := k) (L := L) hPending
  have hOpen : (reading k L p).finished = false := rfl
  have hSame : (reading p.length L p).pending = p := rfl
  rw [events_of_drain_overflow hOpen hDrain hBytes (by rw [hSame]; exact hLong), hSame]

theorem finishEvent_event (s : SseReader) (hDone : buildSseEvent s.eventLines ≠ some "[DONE]") :
    s.finishEvent.1 = buildSseEvent s.eventLines := by
  rw [finishEvent]
  split <;> simp_all

theorem events_end (hDone : buildSseEvent L ≠ some "[DONE]") :
    (reading k L []).events [] = ((buildSseEvent L).toList, none) := by
  apply events_of_drain_end rfl (reading_drain (List.not_mem_nil))
  rw [endOfStream, if_pos (by rfl)]
  exact congrArg Except.ok (finishEvent_event _ hDone)

theorem events_end_line (hPending : newline ∉ p) (hNonempty : p ≠ [])
    (hText : lastLine p = .ok text) (hDone : buildSseEvent (L ++ [text]) ≠ some "[DONE]") :
    (reading k L p).events [] = ((buildSseEvent (L ++ [text])).toList, none) := by
  apply events_of_drain_end rfl (reading_drain hPending)
  rw [endOfStream, if_neg (by exact hNonempty)]
  rw [lastLine] at hText
  cases hDecode : fromUtf8 p with
  | error e => simp [hDecode, Except.map] at hText
  | ok whole =>
    rw [hDecode] at hText
    cases hText
    simp only [reading, hDecode]
    exact congrArg Except.ok (finishEvent_event _ hDone)

theorem events_end_error (hPending : newline ∉ p) (hNonempty : p ≠ [])
    (hText : lastLine p = .error e) : (reading k L p).events [] = ([], some e) := by
  apply events_of_drain_end_error rfl (reading_drain hPending)
  rw [endOfStream, if_neg (by exact hNonempty)]
  rw [lastLine] at hText
  cases hDecode : fromUtf8 p with
  | error e' =>
    rw [hDecode] at hText
    cases hText
    simp only [reading, hDecode]
  | ok whole => simp [hDecode, Except.map] at hText

end SseReader

/-! ## The whole stream, line by line -/

theorem fromUtf8_nil : fromUtf8 [] = .ok "" := by rfl

theorem fromUtf8_eq_ok (h : fromUtf8 bytes = .ok text) : text.toByteArray = ⟨bytes.toArray⟩ := by
  rw [fromUtf8] at h
  split at h
  · rename_i found hFound
    cases h
    rw [strFromUtf8, String.fromUTF8?] at hFound
    split at hFound
    · cases hFound
      rfl
    · cases hFound
  · cases h

theorem fromUtf8_eq_error (h : fromUtf8 bytes = .error e) : e = .fromUtf8 bytes := by
  rw [fromUtf8] at h
  split at h
  · cases h
  · cases h
    rfl

theorem isBlank_terminatedLine (line : Bytes) :
    isBlank (terminatedLine line) = true ↔ popIf carriageReturn line = [] := by
  rw [terminatedLine]
  constructor
  · intro h
    cases hText : fromUtf8 (popIf carriageReturn line) with
    | error e => simp [hText, isBlank] at h
    | ok text =>
      have hEmpty : text = "" := by simpa [hText, isBlank] using h
      have hBytes := fromUtf8_eq_ok hText
      rw [hEmpty] at hBytes
      have hNil := congrArg (fun a : ByteArray => a.data.toList) hBytes
      exact hNil.symm
  · intro h
    rw [h, fromUtf8_nil]
    rfl

theorem streamLines_cons (rest : Bytes) (hLine : newline ∉ line) :
    streamLines (line ++ newline :: rest) = terminatedLine line :: streamLines rest := by
  rw [streamLines, streamLines, List.splitOn_append_cons_self_of_not_mem hLine]
  obtain ⟨first, more, hCut⟩ := List.exists_cons_of_ne_nil (List.splitOn_ne_nil newline rest)
  simp [hCut]

theorem streamLines_nil : streamLines [] = [] := rfl

theorem streamLines_last (hLine : newline ∉ line) (hNonempty : line ≠ []) :
    streamLines line = [lastLine line] := by
  simp [streamLines, List.splitOn_eq_singleton hLine, hNonempty]

/-- The events from a point of the stream where the lines `L` of the current one
are already read. -/
def groupsFrom (L : List String) (rest : Bytes) : List (List (Except ReadError String)) :=
  (eventGroups (streamLines rest)).modifyHead (L.map .ok ++ ·)

theorem groupsFrom_start (stream : Bytes) :
    groupsFrom [] stream = eventGroups (streamLines stream) := by
  obtain ⟨first, more, hCut⟩ :=
    List.exists_cons_of_ne_nil (List.splitOnP_ne_nil isBlank (streamLines stream))
  simp [groupsFrom, eventGroups, hCut]

theorem groupsFrom_nil : groupsFrom L [] = [L.map .ok] := by
  simp [groupsFrom, streamLines_nil, eventGroups]

theorem groupsFrom_blank (rest : Bytes) (hLine : newline ∉ line)
    (hBlank : popIf carriageReturn line = []) :
    groupsFrom L (line ++ newline :: rest) = L.map .ok :: groupsFrom [] rest := by
  rw [groupsFrom_start, groupsFrom, streamLines_cons rest hLine, eventGroups,
    List.splitOnP_cons_eq_if_modifyHead, if_pos ((isBlank_terminatedLine line).mpr hBlank)]
  simp [eventGroups]

theorem groupsFrom_line (rest : Bytes) (hLine : newline ∉ line)
    (hBlank : popIf carriageReturn line ≠ []) (hText : terminatedLine line = .ok text) :
    groupsFrom L (line ++ newline :: rest) = groupsFrom (L ++ [text]) rest := by
  have hBlank' : ¬ isBlank (terminatedLine line) = true :=
    fun h => hBlank ((isBlank_terminatedLine line).mp h)
  rw [groupsFrom, groupsFrom, streamLines_cons rest hLine, eventGroups,
    List.splitOnP_cons_eq_if_modifyHead, if_neg hBlank', hText]
  obtain ⟨first, more, hCut⟩ :=
    List.exists_cons_of_ne_nil (List.splitOnP_ne_nil isBlank (streamLines rest))
  simp [eventGroups, hCut]

theorem mapM_id_ok : (L.map (Except.ok (ε := ReadError))).mapM id = .ok L := by
  induction L with
  | nil => rfl
  | cons text L ih =>
    rw [List.map_cons, List.mapM_cons, ih]
    rfl

theorem mapM_id_error (e : ReadError) (more : List (Except ReadError String)) :
    (L.map Except.ok ++ Except.error e :: more).mapM id = .error e := by
  induction L with
  | nil => rfl
  | cons text L ih =>
    rw [List.map_cons, List.cons_append, List.mapM_cons, ih]
    rfl

theorem groupPayloads_cons (rest : List (List (Except ReadError String))) :
    groupPayloads (L.map .ok :: rest) =
      ((buildSseEvent L).toList ++ (groupPayloads rest).1, (groupPayloads rest).2) := by
  rw [groupPayloads, mapM_id_ok]

theorem groupPayloads_last : groupPayloads [L.map .ok] = ((buildSseEvent L).toList, none) := by
  rw [groupPayloads_cons]
  simp [groupPayloads]

theorem groupPayloads_bad_line (rest : Bytes) (hLine : newline ∉ line)
    (hBlank : popIf carriageReturn line ≠ []) (hText : terminatedLine line = .error e) :
    groupPayloads (groupsFrom L (line ++ newline :: rest)) = ([], some e) := by
  have hBlank' : ¬ isBlank (terminatedLine line) = true :=
    fun h => hBlank ((isBlank_terminatedLine line).mp h)
  rw [groupsFrom, streamLines_cons rest hLine, eventGroups,
    List.splitOnP_cons_eq_if_modifyHead, if_neg hBlank', hText]
  obtain ⟨first, more, hCut⟩ :=
    List.exists_cons_of_ne_nil (List.splitOnP_ne_nil isBlank (streamLines rest))
  simp only [hCut, List.modifyHead_cons]
  rw [groupPayloads, mapM_id_error]

/-- The line that the end of the stream cuts off joins the current event. A blank
one adds nothing to it. -/
theorem groupPayloads_last_line (hLine : newline ∉ line) (hNonempty : line ≠ [])
    (hText : lastLine line = .ok text) :
    groupPayloads (groupsFrom L line) = ((buildSseEvent (L ++ [text])).toList, none) := by
  rw [groupsFrom, streamLines_last hLine hNonempty, hText]
  by_cases hBlank : text = ""
  · have hGroups : eventGroups [Except.ok text] = [[], []] := by
      simp [eventGroups, List.splitOnP_cons_eq_if_modifyHead, isBlank, hBlank]
    have hSame : buildSseEvent (L ++ [text]) = buildSseEvent L := by
      have hNone : stripPrefix "data:" "" = none := by rfl
      simp [buildSseEvent, hBlank, hNone]
    have hNothing : groupPayloads [[]] = ([], none) := by rfl
    rw [hGroups, hSame, List.modifyHead_cons, List.append_nil, groupPayloads_cons, hNothing,
      List.append_nil]
  · have hGroups : eventGroups [Except.ok text] = [[Except.ok text]] := by
      simp [eventGroups, List.splitOnP_cons_eq_if_modifyHead, isBlank, hBlank]
    have hLines : L.map .ok ++ [Except.ok text] =
        (L ++ [text]).map (Except.ok (ε := ReadError)) := by simp
    rw [hGroups, List.modifyHead_cons, hLines, groupPayloads_last]

theorem groupPayloads_last_error (hLine : newline ∉ line) (hNonempty : line ≠ [])
    (hText : lastLine line = .error e) : groupPayloads (groupsFrom L line) = ([], some e) := by
  have hGroups : eventGroups [Except.error e] = [[Except.error e]] := by
    simp [eventGroups, List.splitOnP_cons_eq_if_modifyHead, isBlank]
  rw [groupsFrom, streamLines_last hLine hNonempty, hText, hGroups, List.modifyHead_cons,
    groupPayloads, mapM_id_error]

/-! ## The size cap -/

/-- Wherever the stream is cut inside a line, the bytes of that line before the
cut and the bytes that one read may bring behind it are together at most the
cap. Lines behind the first that is not UTF-8 are never read. -/
def LinesFit (stream : Bytes) : Prop :=
  ∀ before line after : Bytes, stream = before ++ line ++ after →
    (before = [] ∨ before.getLast? = some newline) → newline ∉ line →
    (∀ text ∈ streamLines before, text.isOk) →
    line.length + min readBufferBytes after.length ≤ maxSseEventBytes

theorem LinesFit.read {p : Bytes} (h : LinesFit (p ++ (bytes ++ rest))) (hPending : newline ∉ p)
    (hBytes : bytes.length ≤ readBufferBytes) : (p ++ bytes).length ≤ maxSseEventBytes := by
  have hFits := h [] p (bytes ++ rest) rfl (Or.inl rfl) hPending
    (by simp [streamLines_nil])
  simp only [List.length_append] at hFits ⊢
  omega

theorem LinesFit.behind (h : LinesFit (line ++ newline :: rest)) (hLine : newline ∉ line)
    (hText : terminatedLine line = .ok text) : LinesFit rest := by
  intro before next after hRest hStart hNext hBefore
  apply h (line ++ newline :: before) next after
  · simp [hRest]
  · right
    rcases hStart with rfl | hStart
    · simp
    · simp [List.getLast?_append, List.getLast?_cons, hStart]
  · exact hNext
  · rw [streamLines_cons before hLine, hText]
    simpa [Except.isOk, Except.toBool] using hBefore

theorem eventSize_map_ok (more : List (Except ReadError String)) :
    eventSize (L.map .ok ++ more) = (L.map String.utf8ByteSize).sum + eventSize more := by
  simp [eventSize, Function.comp_def, Except.toOption]

theorem groupsFrom_fits {L : List String}
    (h : ∀ group ∈ groupsFrom L rest, eventSize group ≤ maxSseEventBytes) :
    (L.map String.utf8ByteSize).sum ≤ maxSseEventBytes := by
  obtain ⟨first, more, hCut⟩ :=
    List.exists_cons_of_ne_nil (List.splitOnP_ne_nil isBlank (streamLines rest))
  have hFirst := h (L.map .ok ++ first) (by simp [groupsFrom, eventGroups, hCut])
  rw [eventSize_map_ok] at hFirst
  omega

/-! ## Every splitting yields the events of the stream -/

open SseReader in
/-- From any point between two lines the reader yields what the rest of the stream
holds, however that rest is split. The induction is on what is left to do: a line
in the buffer takes bytes away, a read takes a read away. -/
theorem events_reading (k : Nat) (p : Bytes) (reads : List Bytes) (hScanned : newline ∉ p.take k)
    (hReads : ∀ bytes ∈ reads, bytes ≠ [] ∧ bytes.length ≤ readBufferBytes)
    (hDone : "[DONE]" ∉ (groupPayloads (groupsFrom L (p ++ reads.flatten))).1)
    (hSize : ∀ group ∈ groupsFrom L (p ++ reads.flatten), eventSize group ≤ maxSseEventBytes)
    (hFits : LinesFit (p ++ reads.flatten)) :
    (reading k L p).events reads = groupPayloads (groupsFrom L (p ++ reads.flatten)) := by
  obtain ⟨n, hLeft⟩ : ∃ n, p.length + reads.flatten.length + reads.length = n := ⟨_, rfl⟩
  induction n using Nat.strong_induction_on generalizing L k p reads with | _ n ih =>
  subst hLeft
  by_cases hMem : newline ∈ p
  · obtain ⟨line, rest, rfl, hLine⟩ := List.eq_append_cons_of_mem hMem
    have hShort : k ≤ line.length := by
      by_contra hLong
      apply hScanned
      have hSplit : k = line.length + (k - line.length - 1 + 1) := by omega
      rw [hSplit, List.take_length_add_append]
      simp
    have hStream : line ++ newline :: rest ++ reads.flatten =
        line ++ newline :: (rest ++ reads.flatten) := by simp
    rw [hStream] at hDone hSize hFits ⊢
    by_cases hBlank : popIf carriageReturn line = []
    · -- a blank line: the current event is handed out
      have hText : terminatedLine line = .ok "" := by rw [terminatedLine, hBlank, fromUtf8_nil]
      rw [groupsFrom_blank L _ hLine hBlank] at hDone hSize ⊢
      rw [groupPayloads_cons] at hDone ⊢
      simp only [List.mem_append, not_or, Option.mem_toList] at hDone
      rw [events_blank hLine hShort hBlank hDone.1,
        ih _ (by simp; omega) [] 0 rest reads (by simp) hReads hDone.2
          (fun group hg => hSize group (List.mem_cons_of_mem _ hg)) (hFits.behind hLine hText) rfl]
    · cases hText : terminatedLine line with
      | error e =>
        rw [events_bad_line hLine hShort hText hBlank, groupPayloads_bad_line L _ hLine hBlank hText]
      | ok text =>
        rw [groupsFrom_line L _ hLine hBlank hText] at hDone hSize ⊢
        rw [events_line hLine hShort hText hBlank (groupsFrom_fits hSize),
          ih _ (by simp; omega) (L ++ [text]) 0 rest reads (by simp) hReads hDone hSize
            (hFits.behind hLine hText) rfl]
  · cases reads with
    | nil =>
      rw [List.flatten_nil, List.append_nil] at hDone ⊢
      by_cases hNonempty : p = []
      · subst hNonempty
        rw [groupsFrom_nil, groupPayloads_last] at hDone ⊢
        exact events_end (by simpa using hDone)
      · cases hText : lastLine p with
        | error e =>
          rw [events_end_error hMem hNonempty hText, groupPayloads_last_error L hMem hNonempty hText]
        | ok text =>
          rw [groupPayloads_last_line L hMem hNonempty hText] at hDone ⊢
          exact events_end_line hMem hNonempty hText (by simpa using hDone)
    | cons bytes reads =>
      obtain ⟨hBytes, hRest⟩ := List.forall_mem_cons.mp hReads
      rw [List.flatten_cons, ← List.append_assoc] at hDone hSize hFits ⊢
      have hRead : (p ++ bytes).length ≤ maxSseEventBytes := by
        rw [List.append_assoc] at hFits
        exact hFits.read hMem hBytes.2
      rw [events_read hMem hBytes.1 hRead]
      exact ih _ (by simp; omega) L p.length (p ++ bytes) reads (by simpa using hMem) hRest hDone
        hSize hFits rfl

/-! ## A splitting that crosses the cap -/

theorem split_at_newline {p before : Bytes} (hLine : newline ∉ line)
    (h : p ++ newline :: rest = before ++ line) :
    ∃ before', before = p ++ newline :: before' ∧ rest = before' ++ line := by
  rcases List.append_eq_append_iff.mp h with ⟨a, hBefore, hRest⟩ | ⟨c, -, hIn⟩
  · cases a with
    | nil => exact absurd (by rw [← List.nil_append line, ← hRest]; simp) hLine
    | cons b before' =>
      rw [List.cons_append, List.cons.injEq] at hRest
      obtain ⟨rfl, hRest⟩ := hRest
      exact ⟨before', hBefore, hRest⟩
  · exact absurd (by simp [hIn]) hLine

open SseReader in
/-- Bytes that arrive one at a time up to a point inside a line, and then a read
that crosses the cap: the reader fails, there or before. -/
theorem events_crossing (k : Nat) (p bs bytes before line rest : Bytes) (reads : List Bytes)
    (hPending : newline ∉ p) (hStream : p ++ bs = before ++ line)
    (hStart : before = [] ∨ before.getLast? = some newline) (hLine : newline ∉ line)
    (hBefore : ∀ text ∈ streamLines before, text.isOk) (hBytes : bytes ≠ [])
    (hLong : maxSseEventBytes < (line ++ bytes).length)
    (hDone : "[DONE]" ∉ (groupPayloads (groupsFrom L (p ++ bs ++ rest))).1) :
    ∃ out n, (reading k L p).events (bs.map (fun b => [b]) ++ bytes :: reads) =
      (out, some (eventTooLarge n)) := by
  induction bs generalizing L k p before with
  | nil =>
    have hEmpty : before = [] := by
      rcases hStart with h | h
      · exact h
      · have hMem : newline ∈ p := by
          rw [List.append_nil] at hStream
          rw [hStream]
          exact List.mem_append_left _ (List.mem_of_getLast? h)
        exact absurd hMem hPending
    have hSame : p = line := by simpa [hEmpty] using hStream
    subst hSame
    exact ⟨_, _, events_overflow hPending hBytes hLong⟩
  | cons b bs ih =>
    rw [List.map_cons, List.cons_append]
    by_cases hFull : maxSseEventBytes < (p ++ [b]).length
    · exact ⟨_, _, events_overflow hPending (List.cons_ne_nil _ _) hFull⟩
    rw [events_read hPending (List.cons_ne_nil _ _) (Nat.le_of_not_lt hFull)]
    by_cases hb : b = newline
    · subst hb
      obtain ⟨before', rfl, rfl⟩ := split_at_newline hLine hStream
      have hStart' : before' = [] ∨ before'.getLast? = some newline := by
        rcases List.eq_nil_or_concat before' with h | ⟨init, last, h⟩
        · exact Or.inl h
        · right
          have hLast : (p ++ newline :: (init ++ [last])).getLast? = some last := by
            rw [← List.cons_append, ← List.append_assoc, List.getLast?_concat]
          simpa [h, hLast] using hStart
      rw [streamLines_cons before' hPending, List.forall_mem_cons] at hBefore
      obtain ⟨hText, hBefore'⟩ := hBefore
      have hRest : p ++ newline :: (before' ++ line) ++ rest =
          p ++ newline :: ([] ++ (before' ++ line) ++ rest) := by simp
      rw [hRest] at hDone
      by_cases hBlank : popIf carriageReturn p = []
      · rw [groupsFrom_blank L _ hPending hBlank, groupPayloads_cons] at hDone
        simp only [List.mem_append, not_or, Option.mem_toList] at hDone
        obtain ⟨out, n, hOut⟩ := ih [] 0 [] before' (by simp) rfl hStart' hBefore' hDone.2
        rw [events_blank hPending (le_refl _) hBlank hDone.1, hOut]
        exact ⟨_, n, rfl⟩
      · obtain ⟨text, hText⟩ : ∃ text, terminatedLine p = .ok text := by
          cases hCase : terminatedLine p with
          | error e => simp [hCase, Except.isOk, Except.toBool] at hText
          | ok text => exact ⟨text, rfl⟩
        by_cases hFits : ((L ++ [text]).map String.utf8ByteSize).sum ≤ maxSseEventBytes
        · rw [events_line hPending (le_refl _) hText hBlank hFits]
          rw [groupsFrom_line L _ hPending hBlank hText] at hDone
          exact ih (L ++ [text]) 0 [] before' (by simp) rfl hStart' hBefore' hDone
        · obtain ⟨n, hOut⟩ := events_large_line hPending (le_refl _) hText hBlank (not_le.mp hFits)
          exact ⟨[], n, hOut⟩
    · have hMore : p ++ b :: bs = p ++ [b] ++ bs := by simp
      rw [hMore] at hStream hDone
      exact ih L p.length (p ++ [b]) before (by simp [hPending, Ne.symm hb]) hStream hStart hBefore
        hDone

theorem mem_of_mapM_id_error {group : List (Except ReadError String)} (h : group.mapM id = .error e) :
    .error e ∈ group := by
  induction group with
  | nil => cases h
  | cons line group ih =>
    rw [List.mapM_cons] at h
    cases line with
    | error e' =>
      cases h
      exact List.mem_cons_self
    | ok text =>
      cases hRest : group.mapM id with
      | error e' =>
        rw [hRest] at h
        cases h
        exact List.mem_cons_of_mem _ (ih hRest)
      | ok lines =>
        rw [hRest] at h
        cases h

theorem mem_of_mem_splitOnP {α : Type} {q : α → Bool} {xs group : List α} {x : α}
    (hGroup : group ∈ xs.splitOnP q) (hx : x ∈ group) : x ∈ xs := by
  induction xs generalizing group with
  | nil => simp_all
  | cons y xs ih =>
    rw [List.splitOnP_cons_eq_if_modifyHead] at hGroup
    split at hGroup
    · rcases List.mem_cons.mp hGroup with rfl | hMem
      · cases hx
      · exact List.mem_cons_of_mem _ (ih hMem hx)
    · obtain ⟨first, more, hCut⟩ := List.exists_cons_of_ne_nil (List.splitOnP_ne_nil q xs)
      rw [hCut, List.modifyHead_cons] at hGroup
      rw [hCut] at ih
      rcases List.mem_cons.mp hGroup with rfl | hMem
      · rcases List.mem_cons.mp hx with rfl | hIn
        · exact List.mem_cons_self
        · exact List.mem_cons_of_mem _ (ih List.mem_cons_self hIn)
      · exact List.mem_cons_of_mem _ (ih (List.mem_cons_of_mem _ hMem) hx)

theorem groupPayloads_error {groups : List (List (Except ReadError String))}
    (h : (groupPayloads groups).2 = some e) : ∃ group ∈ groups, .error e ∈ group := by
  induction groups with
  | nil => cases h
  | cons group rest ih =>
    cases hLines : group.mapM id with
    | error e' =>
      simp only [groupPayloads, hLines] at h
      cases h
      exact ⟨group, List.mem_cons_self, mem_of_mapM_id_error hLines⟩
    | ok lines =>
      simp only [groupPayloads, hLines] at h
      obtain ⟨found, hFound, hIn⟩ := ih h
      exact ⟨found, List.mem_cons_of_mem _ hFound, hIn⟩

/-- A whole stream fails only at a line that is not UTF-8. -/
theorem streamEvents_error {stream : Bytes} (h : (streamEvents stream).2 = some e) :
    ∃ bytes, e = .fromUtf8 bytes := by
  obtain ⟨group, hGroup, hIn⟩ := groupPayloads_error h
  have hLine := mem_of_mem_splitOnP hGroup hIn
  simp only [streamLines, List.mem_append, List.mem_map] at hLine
  rcases hLine with ⟨line, -, hText⟩ | ⟨line, -, hText⟩
  · exact ⟨_, fromUtf8_eq_error hText⟩
  · rw [lastLine] at hText
    cases hDecode : fromUtf8 line with
    | error e' =>
      rw [hDecode] at hText
      cases hText
      exact ⟨_, fromUtf8_eq_error hDecode⟩
    | ok text =>
      rw [hDecode] at hText
      cases hText

theorem flatten_singles (bytes : Bytes) : (bytes.map fun b => [b]).flatten = bytes := by
  induction bytes with
  | nil => rfl
  | cons b bytes ih => simp [ih]

/-- One byte a read, but for one larger read. -/
theorem splits_singles {before after : Bytes} (hBytes : bytes ≠ [])
    (hFits : bytes.length ≤ readBufferBytes) :
    Splits (before ++ bytes ++ after)
      (before.map (fun b => [b]) ++ bytes :: after.map (fun b => [b])) where
  flatten := by simp [flatten_singles]
  nonempty := by
    intro read hRead
    simp only [List.mem_append, List.mem_map, List.mem_cons] at hRead
    rcases hRead with ⟨b, -, rfl⟩ | rfl | ⟨b, -, rfl⟩
    · exact List.cons_ne_nil _ _
    · exact hBytes
    · exact List.cons_ne_nil _ _
  fits := by
    have hOne : 1 ≤ readBufferBytes := by decide
    intro read hRead
    simp only [List.mem_append, List.mem_map, List.mem_cons] at hRead
    rcases hRead with ⟨b, -, rfl⟩ | rfl | ⟨b, -, rfl⟩
    · exact hOne
    · exact hFits
    · exact hOne

/-- Every two splittings of the stream yield the same payloads, those of its
blank-line-separated events. -/
def ChunkInvariant (stream : Bytes) : Prop :=
  ∀ reads reads', Splits stream reads → Splits stream reads' →
    SseReader.fromReader.events reads = SseReader.fromReader.events reads' ∧
      SseReader.fromReader.events reads = streamEvents stream

/-- A line that a read can carry across the cap breaks the invariance. -/
theorem not_chunkInvariant_of_crossing {before after : Bytes}
    (hDone : "[DONE]" ∉ (streamEvents (before ++ line ++ (bytes ++ after))).1)
    (hStart : before = [] ∨ before.getLast? = some newline) (hLine : newline ∉ line)
    (hBefore : ∀ text ∈ streamLines before, text.isOk) (hBytes : bytes ≠ [])
    (hFits : bytes.length ≤ readBufferBytes) (hLong : maxSseEventBytes < (line ++ bytes).length) :
    ¬ ChunkInvariant (before ++ line ++ (bytes ++ after)) := by
  intro h
  have hSplits : Splits (before ++ line ++ (bytes ++ after))
      ((before ++ line).map (fun b => [b]) ++ bytes :: after.map (fun b => [b])) := by
    rw [← List.append_assoc]
    exact splits_singles hBytes hFits
  rw [streamEvents, ← groupsFrom_start] at hDone
  obtain ⟨out, n, hOut⟩ := events_crossing [] 0 [] (before ++ line) bytes before line
    (bytes ++ after) (after.map fun b => [b]) (by simp) rfl hStart hLine hBefore hBytes hLong hDone
  have hStart : SseReader.reading 0 [] [] = SseReader.fromReader := rfl
  have hSame := (h _ _ hSplits hSplits).2
  rw [← hStart, hOut] at hSame
  obtain ⟨bad, hBad⟩ := streamEvents_error (congrArg Prod.snd hSame).symm
  cases hBad

theorem chunkInvariant_of_linesFit {stream : Bytes} (hDone : "[DONE]" ∉ (streamEvents stream).1)
    (hSize : ∀ group ∈ eventGroups (streamLines stream), eventSize group ≤ maxSseEventBytes)
    (hFits : LinesFit stream) : ChunkInvariant stream := by
  have hAll : ∀ reads, Splits stream reads →
      SseReader.fromReader.events reads = streamEvents stream := by
    intro reads hReads
    have hStart : SseReader.reading 0 [] [] = SseReader.fromReader := rfl
    rw [streamEvents, ← groupsFrom_start] at hDone ⊢
    rw [← groupsFrom_start] at hSize
    rw [← hReads.flatten] at hDone hSize hFits ⊢
    rw [← hStart]
    exact events_reading [] 0 [] reads (by simp)
      (fun bytes hIn => ⟨hReads.nonempty bytes hIn, hReads.fits bytes hIn⟩) hDone hSize hFits
  intro reads reads' hReads hReads'
  exact ⟨(hAll reads hReads).trans (hAll reads' hReads').symm, hAll reads hReads⟩

/-- For a stream without a `[DONE]` event, none of whose events is above the cap:
how the stream is split into reads makes no difference exactly when no read can
carry the bytes of a line across the cap. -/
theorem chunkInvariant_iff_linesFit {stream : Bytes} (hDone : "[DONE]" ∉ (streamEvents stream).1)
    (hSize : ∀ group ∈ eventGroups (streamLines stream), eventSize group ≤ maxSseEventBytes) :
    ChunkInvariant stream ↔ LinesFit stream := by
  constructor
  · intro h before line after hStream hStart hLine hBefore
    by_contra hLong
    subst hStream
    cases after with
    | nil =>
      -- the last byte of the line is the read that crosses
      have hPos : line ≠ [] := by
        rintro rfl
        exact hLong (Nat.zero_le _)
      obtain ⟨init, last, rfl⟩ := List.eq_nil_or_concat line |>.resolve_left hPos
      rw [List.concat_eq_append] at h hDone hLine hLong
      have hCut : before ++ (init ++ [last]) ++ [] = before ++ init ++ ([last] ++ []) := by simp
      rw [hCut] at h hDone
      have hInit : newline ∉ init := fun hIn => hLine (List.mem_append_left _ hIn)
      have hOne : 1 ≤ readBufferBytes := by decide
      apply not_chunkInvariant_of_crossing hDone hStart hInit hBefore (List.cons_ne_nil _ _)
        hOne _ h
      simp only [List.length_nil, Nat.min_zero, Nat.add_zero] at hLong
      omega
    | cons b after =>
      have hCut := (List.take_append_drop readBufferBytes (b :: after)).symm
      rw [hCut] at h hDone
      apply not_chunkInvariant_of_crossing hDone hStart hLine hBefore _ _ _ h
      · have hPos : readBufferBytes = 4095 + 1 := rfl
        simp [hPos]
      · exact List.length_take_le _ _
      · rw [List.length_append, List.length_take]
        omega
  · exact chunkInvariant_of_linesFit hDone hSize

/-- The bytes of `data:a` and a blank line. -/
def shortStream : Bytes := [100, 97, 116, 97, 58, 97, 10, 10]

theorem chunkInvariant_iff_linesFit_short :
    streamEvents shortStream = (["a"], none) ∧ LinesFit shortStream ∧
      ChunkInvariant shortStream := by
  have hEvents : streamEvents shortStream = (["a"], none) := by rfl
  have hFits : LinesFit shortStream := by
    intro before line after hStream hStart hLine hBefore
    have hLength := congrArg List.length hStream
    have hCap : 8 ≤ maxSseEventBytes := by decide
    simp only [shortStream, List.length_append, List.length_cons, List.length_nil] at hLength
    omega
  refine ⟨hEvents, hFits, (chunkInvariant_iff_linesFit ?_ ?_).mpr hFits⟩
  · rw [hEvents]
    decide
  · decide

/-! ### An event below the cap that one read carries across it -/

theorem fromUtf8_encode (text : List Char) :
    fromUtf8 (text.flatMap String.utf8EncodeChar) = .ok (String.ofList text) := by
  have hBytes : (⟨(text.flatMap String.utf8EncodeChar).toArray⟩ : ByteArray) = text.utf8Encode := by
    ext1
    simp [List.utf8Encode]
  have hValid : (text.utf8Encode).IsValidUTF8 := ByteArray.isValidUTF8_utf8Encode
  rw [fromUtf8, strFromUtf8, hBytes, String.fromUTF8?, dif_pos hValid]
  rfl

/-- The text of a `data:` field with `n` letters. -/
def longField (n : Nat) : List Char := "data:".toList ++ List.replicate n 'x'

def longFieldBytes (n : Nat) : Bytes := [100, 97, 116, 97, 58] ++ List.replicate n 120

theorem longField_eq (n : Nat) : longField n = "data:".toList ++ List.replicate n 'x' := rfl

theorem longField_encode (n : Nat) :
    (longField n).flatMap String.utf8EncodeChar = longFieldBytes n := by
  have hStart : "data:".toList.flatMap String.utf8EncodeChar = [100, 97, 116, 97, 58] := by
    rfl
  have hLetter : String.utf8EncodeChar 'x' = [120] := by rfl
  rw [longField_eq, List.flatMap_append, hStart, longFieldBytes, List.flatMap_replicate, hLetter]
  simp

theorem buildSseEvent_longField (n : Nat) :
    buildSseEvent [String.ofList (longField (n + 1))] =
      some (String.ofList (List.replicate (n + 1) 'x')) := by
  have hStrip : stripPrefix "data:" (String.ofList (longField (n + 1))) =
      some (String.ofList (List.replicate (n + 1) 'x')) := by
    simp [stripPrefix, longField_eq]
  have hLetter : isWhitespace 'x' = false := by rfl
  have hTrim : trimStart (String.ofList (List.replicate (n + 1) 'x')) =
      String.ofList (List.replicate (n + 1) 'x') := by
    simp [trimStart, List.replicate_succ, hLetter]
  have hNonempty : String.ofList (List.replicate (n + 1) 'x') ≠ "" := by
    intro h
    have hList := congrArg String.toList h
    simp at hList
  simp [buildSseEvent, hStrip, hTrim, hNonempty]

/-- An event of one line with `n` letters, and a short event behind it. -/
def crossingStream (n : Nat) : Bytes :=
  longFieldBytes n ++ newline :: newline :: shortStream

theorem newline_notMem_longFieldBytes (n : Nat) : newline ∉ longFieldBytes n := by
  intro h
  rcases List.mem_append.mp h with hIn | hIn
  · revert hIn
    decide
  · exact absurd (List.eq_of_mem_replicate hIn) (by decide)

theorem streamLines_crossingStream (n : Nat) :
    streamLines (crossingStream n) =
      [.ok (String.ofList (longField n)), .ok "", .ok "data:a", .ok ""] := by
  have hBlank : streamLines (newline :: shortStream) = [.ok "", .ok "data:a", .ok ""] := by
    rfl
  have hPlain : popIf carriageReturn (longFieldBytes n) = longFieldBytes n := by
    rw [popIf, if_neg]
    intro h
    have hMem := List.mem_of_getLast? h
    rcases List.mem_append.mp hMem with hIn | hIn
    · revert hIn
      decide
    · exact absurd (List.eq_of_mem_replicate hIn) (by decide)
  have hLine : terminatedLine (longFieldBytes n) = .ok (String.ofList (longField n)) := by
    rw [terminatedLine, hPlain, ← longField_encode, fromUtf8_encode]
  rw [crossingStream, streamLines_cons _ (newline_notMem_longFieldBytes n), hLine, hBlank]

theorem eventGroups_crossingStream (n : Nat) :
    eventGroups (streamLines (crossingStream n)) =
      [[.ok (String.ofList (longField n))], [.ok "data:a"], []] := by
  have hLong : isBlank (.ok (String.ofList (longField n))) = false := by
    have hNonempty : String.ofList (longField n) ≠ "" := by
      intro h
      have hList := congrArg String.toList h
      simp [longField_eq] at hList
    simp [isBlank, hNonempty]
  have hRest : [.ok "", .ok "data:a", .ok ""].splitOnP isBlank =
      [[], [Except.ok "data:a"], []] := by rfl
  rw [streamLines_crossingStream, eventGroups, List.splitOnP_cons_eq_if_modifyHead, hLong, hRest]
  rfl

theorem streamEvents_crossingStream (n : Nat) :
    streamEvents (crossingStream (n + 1)) =
      ([String.ofList (List.replicate (n + 1) 'x'), "a"], none) := by
  have hFirst := groupPayloads_cons [String.ofList (longField (n + 1))]
    [[.ok "data:a"], []]
  have hRest : groupPayloads [[.ok "data:a"], []] = (["a"], none) := by rfl
  rw [buildSseEvent_longField, hRest] at hFirst
  rw [streamEvents, eventGroups_crossingStream]
  exact hFirst

theorem utf8ByteSize_longField (n : Nat) : (String.ofList (longField n)).utf8ByteSize = n + 5 := by
  have hBytes := fromUtf8_eq_ok (fromUtf8_encode (longField n))
  rw [longField_encode] at hBytes
  have hSize := congrArg ByteArray.size hBytes
  rw [String.size_toByteArray] at hSize
  rw [hSize]
  simp [longFieldBytes, ByteArray.size]

theorem done_notMem_crossingStream (n : Nat) :
    "[DONE]" ∉ (streamEvents (crossingStream (n + 1))).1 := by
  rw [streamEvents_crossingStream]
  intro h
  rcases List.mem_cons.mp h with hLong | hShort
  · have hLetter : 'D' ∈ (String.ofList (List.replicate (n + 1) 'x')).toList := by
      rw [← hLong]
      simp
    rw [String.toList_ofList] at hLetter
    exact absurd (List.eq_of_mem_replicate hLetter) (by decide)
  · revert hShort
    simp

theorem eventSize_crossingStream (hShort : n + 5 < maxSseEventBytes) :
    ∀ group ∈ eventGroups (streamLines (crossingStream n)), eventSize group < maxSseEventBytes := by
  rw [eventGroups_crossingStream]
  intro group hGroup
  simp only [List.mem_cons, List.not_mem_nil, or_false] at hGroup
  rcases hGroup with rfl | rfl | rfl
  · have hSize : eventSize [.ok (String.ofList (longField n))] = n + 5 := by
      rw [← utf8ByteSize_longField]
      simp [eventSize, Except.toOption]
    omega
  · decide
  · decide

theorem not_chunkInvariant_crossingStream (hLong : maxSseEventBytes < n + 16) :
    ¬ ChunkInvariant (crossingStream (n + 1)) := by
  have hDone := done_notMem_crossingStream n
  have hCut : crossingStream (n + 1) =
      [] ++ longFieldBytes (n + 1) ++ ((newline :: newline :: shortStream) ++ []) := by
    simp [crossingStream]
  rw [hCut] at hDone ⊢
  apply not_chunkInvariant_of_crossing hDone (Or.inl rfl) (newline_notMem_longFieldBytes _)
    (by simp [streamLines_nil]) (List.cons_ne_nil _ _) (by decide)
  simp only [longFieldBytes, shortStream, List.length_append, List.length_cons, List.length_nil,
    List.length_replicate]
  omega

/-- The first event is three bytes below the cap. Read byte by byte up to its line
end and then with the ten bytes left in one read, the reader reports it as too
large. -/
theorem not_chunkInvariant_below_cap :
    "[DONE]" ∉ (streamEvents (crossingStream (maxSseEventBytes - 9 + 1))).1 ∧
      (∀ group ∈ eventGroups (streamLines (crossingStream (maxSseEventBytes - 9 + 1))),
        eventSize group < maxSseEventBytes) ∧
      ¬ ChunkInvariant (crossingStream (maxSseEventBytes - 9 + 1)) := by
  have hCap : 9 < maxSseEventBytes := by decide
  exact ⟨done_notMem_crossingStream _, eventSize_crossingStream (by omega),
    not_chunkInvariant_crossingStream (by omega)⟩

end Choreographr.Protocols
