import Choreographr.Protocols.Proofs.Sse

/-!
# The end marker of an event stream

A `[DONE]` event ends a stream. The reader can take it in two places: in
`drainCompleteEvent`, when a blank line ends it, and at the end of the stream, when
nothing does. Only the second one returns to the caller at once. Behind the first
the loop of `nextEvent` goes on: it asks the source for more bytes, and what it
finds there can be one more event.
-/

namespace Choreographr.Protocols

open Session

/-! ## What a call does -/

/-- The steps of a call that the end marker is about. -/
inductive ReaderAct where
  /-- A `[DONE]` event that a blank line ends is taken. -/
  | blankDone
  /-- A `[DONE]` event that the end of the stream cuts off is taken. -/
  | lastDone
  /-- The source is asked for more bytes. -/
  | ask
deriving DecidableEq

namespace ReaderAct

def takesDone : ReaderAct → Bool
  | .blankDone | .lastDone => true
  | .ask => false

end ReaderAct

namespace SseReader

/-- Draining sets the flag of an open reader only in its `[DONE]` branch. -/
def drainActs (s : SseReader) : List ReaderAct :=
  if !s.finished && s.drainCompleteEvent.2.finished then [.blankDone] else []

/-- The lines of the event that the end of the stream cuts off. -/
def lastLines (s : SseReader) : Option (List String) :=
  if s.pending = [] then some s.eventLines
  else
    match fromUtf8 s.pending with
    | .error _ => none
    | .ok line => some (s.eventLines ++ [trimEndMatches '\r' line])

def endActs (s : SseReader) : List ReaderAct :=
  if s.lastLines.bind buildSseEvent = some "[DONE]" then [.lastDone] else []

set_option linter.unusedVariables false in
/-- The steps of `nextEventLoop`. -/
def loopActs (s : SseReader) (reads : List Bytes) : List ReaderAct :=
  match s.drainCompleteEvent, reads with
  | (.error e, s'), reads => []
  | (.ok (some event), s'), reads => []
  | (.ok none, s'), [] => s.drainActs ++ .ask :: s'.endActs
  | (.ok none, s'), [] :: reads => s.drainActs ++ .ask :: s'.endActs
  | (.ok none, s'), (b :: bytes) :: reads =>
      let pending := s'.pending ++ b :: bytes
      s.drainActs ++ .ask ::
        if maxSseEventBytes < pending.length then []
        else loopActs { s' with pending := pending } reads
termination_by reads.length

/-- The steps of `nextEvent`. -/
def callActs (s : SseReader) (reads : List Bytes) : List ReaderAct :=
  if s.finished then [] else s.loopActs reads

/-- The reader, and the reads it has not asked for, after `n` calls. -/
def afterCalls (reads : List Bytes) : Nat → SseReader × List Bytes
  | 0 => (fromReader, reads)
  | n + 1 =>
      let before := afterCalls reads n
      (before.1.nextEvent before.2).2

def outcomeOf (reads : List Bytes) (n : Nat) : Outcome :=
  ((afterCalls reads n).1.nextEvent (afterCalls reads n).2).1

def actsOf (reads : List Bytes) (n : Nat) : List ReaderAct :=
  (afterCalls reads n).1.callActs (afterCalls reads n).2

/-- The lines of a stream that a newline ends, as the reader takes them. -/
def completeLines (stream : Bytes) : List Bytes :=
  (stream.splitOn newline).dropLast.map (popIf carriageReturn)

/-- A blank line ends a `[DONE]` event. The lines `L` of the current event have `n` bytes; a
line that is not UTF-8, or that brings them above the cap, is no line of the event. -/
def blankEndsDone (L : List String) (n : Nat) : List Bytes → Bool
  | [] => false
  | [] :: rest => buildSseEvent L == some "[DONE]" || blankEndsDone [] 0 rest
  | (b :: bytes) :: rest =>
      match fromUtf8 (b :: bytes) with
      | .error _ => blankEndsDone L n rest
      | .ok text =>
          let n := min (n + text.utf8ByteSize) usizeMax
          if maxSseEventBytes < n then blankEndsDone L n rest
          else blankEndsDone (L ++ [text]) n rest

/-- Once a call has taken a `[DONE]` event it reports the end of the stream without
asking for more bytes, and so does every later call. -/
def StopsAtDone (reads : List Bytes) : Prop :=
  ∀ n before act after, actsOf reads n = before ++ act :: after → act.takesDone = true →
    after = [] ∧ outcomeOf reads n = .ok none ∧
      ∀ m, n < m → outcomeOf reads m = .ok none ∧ actsOf reads m = []

/-! ## The two ways of taking it -/

variable {s : SseReader} {reads : List Bytes}

/-- Draining to the end marker yields no event. -/
theorem drain_of_finished (hOpen : s.finished = false)
    (h : s.drainCompleteEvent.2.finished = true) : s.drainCompleteEvent.1 = .ok none := by
  have hTake : ∀ {s s' : SseReader} {line : Bytes}, s.takeLine = some (line, s') →
      s'.finished = s.finished := by
    intro s s' line hTake
    rw [takeLine] at hTake
    split at hTake
    · cases hTake
    · cases hTake
      rfl
  fun_induction drainCompleteEvent s with
  | case1 s hNone => rfl
  | case2 s s' hEvent hTakeLine hLess => rfl
  | case3 s s' event hEvent hBuild hTakeLine hLess =>
    have hStill := (hTake hTakeLine).trans hOpen
    rw [h] at hStill
    cases hStill
  | case4 s s' hBuild hTakeLine hLess ih => exact ih ((hTake hTakeLine).trans hOpen) h
  | case5 s line s' hTakeLine hLess =>
    have hStill := (hTake hTakeLine).trans hOpen
    rw [h] at hStill
    cases hStill
  | case6 s line s' hTakeLine hLess =>
    have hStill := (hTake hTakeLine).trans hOpen
    rw [h] at hStill
    cases hStill
  | case7 s line s' hTakeLine hLess hLine text hText bytes hBytes ih =>
    exact ih ((hTake hTakeLine).trans hOpen) h

theorem drainActs_of_finished (hOpen : s.finished = false)
    (h : s.drainCompleteEvent.2.finished = true) : s.drainActs = [.blankDone] := by
  rw [drainActs, hOpen, h]
  rfl

theorem drainActs_of_open (h : s.drainCompleteEvent.2.finished = false) : s.drainActs = [] := by
  rw [drainActs, h, Bool.and_false]
  rfl

theorem lastDone_notMem_drainActs (s : SseReader) : .lastDone ∉ s.drainActs := by
  unfold drainActs
  split <;> simp

theorem blankDone_notMem_endActs (s : SseReader) : .blankDone ∉ s.endActs := by
  unfold endActs
  split <;> simp

theorem getLast?_ask (before after : List ReaderAct) :
    (before ++ .ask :: after).getLast? = (ReaderAct.ask :: after).getLast? := by
  rw [List.getLast?_append]
  cases after <;> rfl

theorem ask_endActs_getLast? (s : SseReader) :
    (ReaderAct.ask :: s.endActs).getLast? ≠ some .blankDone := by
  intro h
  have hMem := List.mem_of_getLast? h
  rcases List.mem_cons.mp hMem with hAsk | hEnd
  · cases hAsk
  · exact blankDone_notMem_endActs s hEnd

/-- Behind a `[DONE]` that a blank line ends the loop goes on. -/
theorem loopActs_getLast? (s : SseReader) (reads : List Bytes) :
    (s.loopActs reads).getLast? ≠ some .blankDone := by
  fun_induction loopActs s reads with
  | case1 => simp
  | case2 => simp
  | case3 s s' hDrain =>
    rw [getLast?_ask]
    exact ask_endActs_getLast? s'
  | case4 s s' rest hDrain =>
    rw [getLast?_ask]
    exact ask_endActs_getLast? s'
  | case5 s s' b bytes reads hDrain pending ih =>
    rw [getLast?_ask]
    by_cases hLong : maxSseEventBytes < pending.length
    · rw [if_pos hLong]
      simp
    · rw [if_neg hLong]
      cases hRest : loopActs { s' with pending := pending } reads with
      | nil => simp
      | cons act rest =>
        rw [List.getLast?_cons_cons, ← hRest]
        exact ih

/-- A cut-off `[DONE]` is reported as the end of the stream. -/
theorem endOfStream_of_lastDone (h : .lastDone ∈ s.endActs) :
    s.endOfStream.1 = .ok none := by
  unfold endActs at h
  split at h
  · next hLast =>
    unfold lastLines at hLast
    rw [endOfStream]
    split at hLast
    · next hPending =>
      rw [if_pos hPending]
      have hBuild : buildSseEvent s.eventLines = some "[DONE]" := hLast
      simp [finishEvent, hBuild]
    · next hPending =>
      rw [if_neg hPending]
      cases hText : fromUtf8 s.pending with
      | error e =>
        rw [hText] at hLast
        cases hLast
      | ok line =>
        rw [hText] at hLast
        have hBuild : buildSseEvent (s.eventLines ++ [trimEndMatches '\r' line]) =
            some "[DONE]" := hLast
        simp [finishEvent, hBuild]
  · cases h

/-- The `[DONE]` at the end of the stream is the last thing a call does. -/
theorem loopActs_lastDone (h : .lastDone ∈ s.loopActs reads) :
    (∃ before, s.loopActs reads = before ++ [ReaderAct.lastDone] ∧ ReaderAct.lastDone ∉ before) ∧
      (s.nextEventLoop reads).1 = .ok none ∧ (s.nextEventLoop reads).2.1.finished = true := by
  have hEnds : ∀ {acts : List ReaderAct} {s' : SseReader}, .lastDone ∉ acts →
      .lastDone ∈ acts ++ ReaderAct.ask :: s'.endActs →
      (∃ before, acts ++ ReaderAct.ask :: s'.endActs = before ++ [ReaderAct.lastDone] ∧
        ReaderAct.lastDone ∉ before) ∧
        s'.endOfStream.1 = .ok none := by
    intro acts s' hActs hMem
    have hEnd : .lastDone ∈ s'.endActs := by
      rcases List.mem_append.mp hMem with hBad | hTail
      · exact absurd hBad hActs
      · rcases List.mem_cons.mp hTail with hAsk | hEnd
        · cases hAsk
        · exact hEnd
    refine ⟨⟨acts ++ [.ask], ?_, ?_⟩, endOfStream_of_lastDone hEnd⟩
    · have hOne : s'.endActs = [.lastDone] := by
        unfold endActs at hEnd ⊢
        split at hEnd
        · next hLast => rw [if_pos hLast]
        · cases hEnd
      rw [hOne]
      simp
    · simp [hActs]
  fun_induction loopActs s reads with
  | case1 s reads e s' hDrain => cases h
  | case2 s reads event s' hDrain => cases h
  | case3 s s' hDrain =>
    obtain ⟨hSplit, hNone⟩ := hEnds (lastDone_notMem_drainActs s) h
    refine ⟨hSplit, ?_, ?_⟩
    · rw [nextEventLoop.eq_def, hDrain]
      exact hNone
    · rw [nextEventLoop.eq_def, hDrain]
      exact (endOfStream_ends s').2
  | case4 s s' rest hDrain =>
    obtain ⟨hSplit, hNone⟩ := hEnds (lastDone_notMem_drainActs s) h
    refine ⟨hSplit, ?_, ?_⟩
    · rw [nextEventLoop.eq_def, hDrain]
      exact hNone
    · rw [nextEventLoop.eq_def, hDrain]
      exact (endOfStream_ends s').2
  | case5 s s' b bytes reads hDrain pending ih =>
    have hTail := (List.mem_append.mp h).resolve_left (lastDone_notMem_drainActs s)
    by_cases hLong : maxSseEventBytes < pending.length
    · rw [if_pos hLong] at hTail
      cases List.mem_singleton.mp hTail
    · rw [if_neg hLong] at hTail ⊢
      have hRest : .lastDone ∈ loopActs { s' with pending := pending } reads := by
        rcases List.mem_cons.mp hTail with hAsk | hRest
        · cases hAsk
        · exact hRest
      obtain ⟨⟨before, hSplit, hNot⟩, hNone, hFinished⟩ := ih hRest
      have hStep : s.nextEventLoop ((b :: bytes) :: reads) =
          nextEventLoop { s' with pending := pending } reads := by
        rw [nextEventLoop.eq_def, hDrain]
        exact if_neg hLong
      refine ⟨⟨s.drainActs ++ .ask :: before, ?_, ?_⟩, ?_, ?_⟩
      · rw [hSplit]
        simp
      · simp [hNot, lastDone_notMem_drainActs]
      · rw [hStep]
        exact hNone
      · rw [hStep]
        exact hFinished

/-! ## Later calls -/

theorem finished_forever {n : Nat} (h : (afterCalls reads (n + 1)).1.finished = true) (m : Nat)
    (hLater : n < m) : outcomeOf reads m = .ok none ∧ actsOf reads m = [] := by
  have hStays : (afterCalls reads m).1.finished = true := by
    induction m with
    | zero => omega
    | succ m ih =>
      rcases Nat.lt_succ_iff_lt_or_eq.mp hLater with hBefore | rfl
      · have hFinished := ih hBefore
        rw [afterCalls, nextEvent, if_pos hFinished]
        exact hFinished
      · exact h
  constructor
  · rw [outcomeOf, nextEvent, if_pos hStays]
  · rw [actsOf, callActs, if_pos hStays]

/-! ## The stream and the calls -/

theorem completeLines_cons {line : Bytes} (rest : Bytes) (hLine : newline ∉ line) :
    completeLines (line ++ newline :: rest) =
      popIf carriageReturn line :: completeLines rest := by
  rw [completeLines, completeLines, List.splitOn_append_cons_self_of_not_mem hLine]
  obtain ⟨first, more, hCut⟩ := List.exists_cons_of_ne_nil (List.splitOn_ne_nil newline rest)
  simp [hCut]

theorem completeLines_last {line : Bytes} (hLine : newline ∉ line) : completeLines line = [] := by
  simp [completeLines, List.splitOn_eq_singleton hLine]

/-- An open reader that has missed no newline. -/
structure Reading (s : SseReader) : Prop where
  isOpen : s.finished = false
  scanned : newline ∉ s.pending.take s.scanned

/-- A blank line ends a `[DONE]` event in what the reader has left. -/
def doneAhead (s : SseReader) (rest : Bytes) : Bool :=
  blankEndsDone s.eventLines s.eventBytes (completeLines (s.pending ++ rest))

theorem Reading.takeLine_cases (h : Reading s) :
    (s.takeLine = none ∧ newline ∉ s.pending) ∨
    (∃ line rest, s.takeLine =
        some (popIf carriageReturn line, { s with pending := rest, scanned := 0 }) ∧
      s.pending = line ++ newline :: rest ∧ newline ∉ line) := by
  by_cases hMem : newline ∈ s.pending
  · obtain ⟨line, rest, hPending, hLine⟩ := List.eq_append_cons_of_mem hMem
    refine Or.inr ⟨line, rest, takeLine_of_line hPending hLine ?_, hPending, hLine⟩
    by_contra hShort
    refine h.scanned ?_
    rw [hPending, List.mem_take_iff_getElem]
    refine ⟨line.length, ?_, by simp⟩
    simp only [List.length_append, List.length_cons]
    omega
  · exact Or.inl ⟨takeLine_eq_none hMem, hMem⟩

/-- What draining an open reader leads to. -/
theorem drain_cases (h : Reading s) (rest : Bytes) :
    (s.drainCompleteEvent.2.finished = true ∧ s.doneAhead rest = true) ∨
    (Reading s.drainCompleteEvent.2 ∧
      s.drainCompleteEvent.2.doneAhead rest = s.doneAhead rest ∧
      (s.drainCompleteEvent.1 = .ok none → newline ∉ s.drainCompleteEvent.2.pending ∧
        s.drainCompleteEvent.2.scanned = s.drainCompleteEvent.2.pending.length) ∧
      (s.drainCompleteEvent.1 ≠ .ok none →
        s.drainCompleteEvent.2.pending.length < s.pending.length)) := by
  -- a line leaves a reader that has it behind it
  have hLineOf : ∀ {s s' : SseReader} {line : Bytes}, Reading s →
      s.takeLine = some (line, s') → Reading s' ∧
        s'.eventLines = s.eventLines ∧ s'.eventBytes = s.eventBytes ∧
        s.doneAhead rest =
          blankEndsDone s.eventLines s.eventBytes
            (line :: completeLines (s'.pending ++ rest)) := by
    intro s s' line h hTake
    rcases h.takeLine_cases with ⟨hNone, -⟩ | ⟨raw, behind, hSome, hPending, hRaw⟩
    · rw [hNone] at hTake
      cases hTake
    · rw [hSome] at hTake
      cases hTake
      refine ⟨⟨h.isOpen, by simp⟩, rfl, rfl, ?_⟩
      rw [doneAhead, hPending, List.append_assoc, List.cons_append, completeLines_cons _ hRaw]
  fun_induction drainCompleteEvent s with
  | case1 s hNone =>
    rcases h.takeLine_cases with ⟨-, hPending⟩ | ⟨raw, behind, hSome, -⟩
    · exact Or.inr ⟨⟨h.isOpen, fun hMem => hPending (List.mem_of_mem_take hMem)⟩, rfl,
        fun _ => ⟨hPending, rfl⟩, fun hOther => absurd rfl hOther⟩
    · rw [hNone] at hSome
      cases hSome
  | case2 s s' hTake hLess hBuild =>
    obtain ⟨-, hLines, -, hAhead⟩ := hLineOf h hTake
    refine Or.inl ⟨rfl, ?_⟩
    rw [hAhead, blankEndsDone, ← hLines, hBuild]
    rfl
  | case3 s s' event hBuild hDone hTake hLess =>
    obtain ⟨hReading, hLines, -, hAhead⟩ := hLineOf h hTake
    refine Or.inr ⟨⟨hReading.isOpen, hReading.scanned⟩, ?_, fun hOther => (by cases hOther),
      fun _ => hLess⟩
    rw [hAhead, blankEndsDone, ← hLines, hBuild]
    simp [hDone, doneAhead]
  | case4 s s' hBuild hTake hLess ih =>
    obtain ⟨hReading, hLines, -, hAhead⟩ := hLineOf h hTake
    have hSame : doneAhead { s' with eventLines := [], eventBytes := 0 } rest =
        s.doneAhead rest := by
      rw [hAhead, blankEndsDone, ← hLines, hBuild]
      simp [doneAhead]
    rw [← hSame]
    rcases ih ⟨hReading.isOpen, hReading.scanned⟩ with hDone | ⟨hNext, hEq, hNone, hShrinks⟩
    · exact Or.inl hDone
    · exact Or.inr ⟨hNext, hEq, hNone, fun hOther => (hShrinks hOther).trans hLess⟩
  | case5 s line s' hTake hLess hLine e hText =>
    obtain ⟨hReading, hLines, hBytes, hAhead⟩ := hLineOf h hTake
    refine Or.inr ⟨hReading, ?_, fun hOther => (by cases hOther), fun _ => hLess⟩
    obtain ⟨b, bytes, rfl⟩ := List.exists_cons_of_ne_nil hLine
    rw [hAhead, blankEndsDone, hText, doneAhead, hLines, hBytes]
  | case6 s line s' hTake hLess hLine text hText bytes hLong =>
    obtain ⟨hReading, hLines, hBytes, hAhead⟩ := hLineOf h hTake
    refine Or.inr ⟨⟨hReading.isOpen, hReading.scanned⟩, ?_, fun hOther => (by cases hOther),
      fun _ => hLess⟩
    obtain ⟨b, bytes', rfl⟩ := List.exists_cons_of_ne_nil hLine
    rw [hAhead, blankEndsDone, hText, ← hLines, ← hBytes]
    exact (if_pos hLong).symm
  | case7 s line s' hTake hLess hLine text hText bytes hFits ih =>
    obtain ⟨hReading, hLines, hBytes, hAhead⟩ := hLineOf h hTake
    have hSame : doneAhead { s' with eventBytes := bytes, eventLines := s'.eventLines ++ [text] }
        rest = s.doneAhead rest := by
      obtain ⟨b, bytes', rfl⟩ := List.exists_cons_of_ne_nil hLine
      rw [hAhead, blankEndsDone, hText, ← hLines, ← hBytes]
      exact (if_neg hFits).symm
    rw [← hSame]
    rcases ih ⟨hReading.isOpen, hReading.scanned⟩ with hDone | ⟨hNext, hEq, hNone, hShrinks⟩
    · exact Or.inl hDone
    · exact Or.inr ⟨hNext, hEq, hNone, fun hOther => (hShrinks hOther).trans hLess⟩

/-- What is left to do, counting a byte twice until it is read. -/
def toDo (s : SseReader) (reads : List Bytes) : Nat :=
  s.pending.length + 2 * reads.flatten.length

theorem endOfStream_notAhead (hPending : newline ∉ s.pending) : s.doneAhead [] = false := by
  rw [doneAhead, List.append_nil, completeLines_last hPending, blankEndsDone]

/-- A call of an open reader takes a `[DONE]` that a blank line ends, or ends the
stream with none ahead, or leaves as much ahead as there was. -/
theorem loop_cases (h : Reading s) (hReads : ∀ bytes ∈ reads, bytes ≠ []) :
    (.blankDone ∈ s.loopActs reads ∧ s.doneAhead reads.flatten = true) ∨
    (.blankDone ∉ s.loopActs reads ∧ (s.nextEventLoop reads).2.1.finished = true ∧
      s.doneAhead reads.flatten = false) ∨
    (.blankDone ∉ s.loopActs reads ∧ Reading (s.nextEventLoop reads).2.1 ∧
      (∀ bytes ∈ (s.nextEventLoop reads).2.2, bytes ≠ []) ∧
      (s.nextEventLoop reads).2.1.doneAhead (s.nextEventLoop reads).2.2.flatten =
        s.doneAhead reads.flatten ∧
      (s.nextEventLoop reads).2.1.toDo (s.nextEventLoop reads).2.2 < s.toDo reads) := by
  have hDrain := drain_cases h reads.flatten
  have hNone := drain_of_finished h.isOpen
  fun_induction loopActs s reads with
  | case1 s reads e s' hResult =>
    rw [nextEventLoop.eq_def]
    rw [hResult] at hDrain hNone ⊢
    rcases hDrain with ⟨hDone, -⟩ | ⟨hNext, hSame, -, hShrinks⟩
    · cases hNone hDone
    · refine Or.inr (Or.inr ⟨by simp, hNext, hReads, hSame, ?_⟩)
      exact Nat.add_lt_add_right (hShrinks (by simp)) _
  | case2 s reads event s' hResult =>
    rw [nextEventLoop.eq_def]
    rw [hResult] at hDrain hNone ⊢
    rcases hDrain with ⟨hDone, -⟩ | ⟨hNext, hSame, -, hShrinks⟩
    · cases hNone hDone
    · refine Or.inr (Or.inr ⟨by simp, hNext, hReads, hSame, ?_⟩)
      exact Nat.add_lt_add_right (hShrinks (by simp)) _
  | case3 s s' hResult =>
    rw [nextEventLoop.eq_def]
    rw [hResult] at hDrain ⊢
    rcases hDrain with ⟨hDone, hAhead⟩ | ⟨hNext, hSame, hPending, -⟩
    · refine Or.inl ⟨?_, hAhead⟩
      rw [drainActs_of_finished h.isOpen (by rw [hResult]; exact hDone)]
      exact List.mem_cons_self
    · refine Or.inr (Or.inl ⟨?_, (endOfStream_ends s').2, ?_⟩)
      · rw [drainActs_of_open (by rw [hResult]; exact hNext.isOpen)]
        simp [blankDone_notMem_endActs]
      · exact hSame.symm.trans (endOfStream_notAhead (hPending rfl).1)
  | case4 s s' rest hResult => exact absurd rfl (hReads [] List.mem_cons_self)
  | case5 s s' b bytes reads hResult pending ih =>
    have hActs := @drainActs_of_finished s h.isOpen
    have hOpenActs := @drainActs_of_open s
    have hLoop : s.nextEventLoop ((b :: bytes) :: reads) =
        if maxSseEventBytes < pending.length then
          (.error (eventTooLarge pending.length), { s' with pending := pending }, reads)
        else nextEventLoop { s' with pending := pending } reads := by
      rw [nextEventLoop.eq_def, hResult]
    have hShrinks := (drainCompleteEvent_shrinks s).1
    rw [hResult] at hDrain hActs hOpenActs hShrinks
    rcases hDrain with ⟨hDone, hAhead⟩ | ⟨hNext, hSame, hPending, -⟩
    · refine Or.inl ⟨?_, hAhead⟩
      rw [hActs hDone]
      exact List.mem_cons_self
    · -- the bytes of the read join what is pending
      have hReading : Reading { s' with pending := pending } := by
        obtain ⟨hNewline, hScanned⟩ := hPending rfl
        refine ⟨hNext.isOpen, ?_⟩
        rw [hScanned, List.take_left]
        exact hNewline
      have hAhead : doneAhead { s' with pending := pending } reads.flatten =
          s.doneAhead ((b :: bytes) :: reads).flatten := by
        rw [← hSame, doneAhead, doneAhead, List.flatten_cons, ← List.append_assoc]
      have hToDo : toDo { s' with pending := pending } reads <
          s.toDo ((b :: bytes) :: reads) := by
        simp only [toDo, pending, List.length_append, List.flatten_cons, List.length_cons]
          at hShrinks ⊢
        omega
      have hRest : ∀ bytes ∈ reads, bytes ≠ [] :=
        fun bytes hMem => hReads bytes (List.mem_cons_of_mem _ hMem)
      rw [hOpenActs hNext.isOpen, List.nil_append]
      by_cases hLong : maxSseEventBytes < pending.length
      · rw [if_pos hLong] at hLoop ⊢
        rw [hLoop]
        exact Or.inr (Or.inr ⟨by simp, hReading, hRest, hAhead, hToDo⟩)
      · rw [if_neg hLong] at hLoop ⊢
        rw [hLoop]
        rcases ih hReading hRest (drain_cases hReading _) (drain_of_finished hReading.isOpen) with
          ⟨hMem, hDone⟩ | ⟨hMem, hFinished, hNot⟩ | ⟨hMem, hNext, hLeft, hEq, hLess⟩
        · exact Or.inl ⟨List.mem_cons_of_mem _ hMem, hAhead ▸ hDone⟩
        · exact Or.inr (Or.inl ⟨by simp [hMem], hFinished, hAhead ▸ hNot⟩)
        · exact Or.inr (Or.inr ⟨by simp [hMem], hNext, hLeft, hEq.trans hAhead,
            hLess.trans hToDo⟩)

/-- The calls from the `n`th on take a `[DONE]` that a blank line ends exactly when
one is ahead. -/
theorem blankDone_iff_ahead (reads : List Bytes) (n : Nat) (h : Reading (afterCalls reads n).1)
    (hReads : ∀ bytes ∈ (afterCalls reads n).2, bytes ≠ []) :
    (∃ m, n ≤ m ∧ .blankDone ∈ actsOf reads m) ↔
      (afterCalls reads n).1.doneAhead (afterCalls reads n).2.flatten = true := by
  have hActs : actsOf reads n = (afterCalls reads n).1.loopActs (afterCalls reads n).2 := by
    rw [actsOf, callActs, if_neg (by simp [h.isOpen])]
  have hAfter : afterCalls reads (n + 1) =
      ((afterCalls reads n).1.nextEventLoop (afterCalls reads n).2).2 := by
    rw [afterCalls, nextEvent_eq_loop h.isOpen]
  have hLater : .blankDone ∉ actsOf reads n →
      ((∃ m, n ≤ m ∧ .blankDone ∈ actsOf reads m) ↔
        ∃ m, n + 1 ≤ m ∧ .blankDone ∈ actsOf reads m) := by
    intro hNot
    constructor
    · rintro ⟨m, hLe, hMem⟩
      rcases Nat.eq_or_lt_of_le hLe with rfl | hLt
      · exact absurd hMem hNot
      · exact ⟨m, hLt, hMem⟩
    · rintro ⟨m, hLe, hMem⟩
      exact ⟨m, Nat.le_of_succ_le hLe, hMem⟩
  rcases loop_cases h hReads with
    ⟨hMem, hDone⟩ | ⟨hNot, hFinished, hAhead⟩ | ⟨hNot, hNext, hLeft, hSame, hLess⟩
  · exact iff_of_true ⟨n, le_rfl, hActs ▸ hMem⟩ hDone
  · rw [← hActs] at hNot
    rw [hLater hNot, hAhead]
    rw [← hAfter] at hFinished
    refine iff_of_false ?_ (by simp)
    rintro ⟨m, hLe, hMem⟩
    rw [(finished_forever hFinished m hLe).2] at hMem
    cases hMem
  · rw [← hActs] at hNot
    rw [← hAfter] at hNext hLeft hSame
    rw [hLater hNot, ← hSame]
    exact blankDone_iff_ahead reads (n + 1) hNext hLeft
termination_by (afterCalls reads n).1.toDo (afterCalls reads n).2
decreasing_by exact hAfter ▸ hLess

/-- A stream has the calls take a `[DONE]` that a blank line ends exactly when one of
its complete lines is that blank line. -/
theorem blankDone_iff_stream {stream : Bytes} (hSplits : Splits stream reads) :
    (∃ n, .blankDone ∈ actsOf reads n) ↔ blankEndsDone [] 0 (completeLines stream) = true := by
  have hStart := blankDone_iff_ahead reads 0 ⟨rfl, by simp [afterCalls, fromReader]⟩
    hSplits.nonempty
  rw [← hSplits.flatten]
  refine Iff.trans ?_ hStart
  exact exists_congr fun m => (and_iff_right (Nat.zero_le m)).symm

/-- The reader stops at `[DONE]` when no call takes one that a blank line ends. -/
theorem stopsAtDone_iff_acts (reads : List Bytes) :
    StopsAtDone reads ↔ ∀ n, .blankDone ∉ actsOf reads n := by
  constructor
  · intro hStops n hMem
    obtain ⟨before, after, hSplit⟩ := List.append_of_mem hMem
    obtain ⟨rfl, -, -⟩ := hStops n before .blankDone after hSplit rfl
    unfold actsOf callActs at hSplit
    split at hSplit
    · simp at hSplit
    · refine loopActs_getLast? (afterCalls reads n).1 (afterCalls reads n).2 ?_
      rw [hSplit]
      simp
  · intro hBlank n before act after hSplit hDone
    have hLast : act = .lastDone := by
      cases act with
      | lastDone => rfl
      | blankDone =>
        refine absurd ?_ (hBlank n)
        rw [hSplit]
        simp
      | ask => cases hDone
    subst hLast
    have hOpen : (afterCalls reads n).1.finished = false := by
      cases hFinished : (afterCalls reads n).1.finished with
      | false => rfl
      | true =>
        rw [actsOf, callActs, if_pos hFinished] at hSplit
        simp at hSplit
    have hActs : actsOf reads n = (afterCalls reads n).1.loopActs (afterCalls reads n).2 := by
      rw [actsOf, callActs, if_neg (by simp [hOpen])]
    have hMem : .lastDone ∈ (afterCalls reads n).1.loopActs (afterCalls reads n).2 := by
      rw [← hActs, hSplit]
      simp
    obtain ⟨⟨before', hSplit', hNot⟩, hNone, hFinished⟩ := loopActs_lastDone hMem
    refine ⟨?_, ?_, ?_⟩
    · by_contra hMore
      obtain ⟨act, rest, rfl⟩ := List.exists_cons_of_ne_nil hMore
      have hBefore := congrArg List.dropLast (hSplit.symm.trans (hActs.trans hSplit'))
      rw [List.dropLast_concat, List.dropLast_append_of_ne_nil (by simp)] at hBefore
      refine hNot ?_
      rw [← hBefore]
      simp
    · rw [outcomeOf, nextEvent_eq_loop hOpen]
      exact hNone
    · refine finished_forever ?_
      rw [afterCalls, nextEvent_eq_loop hOpen]
      exact hFinished

/-- The reader stops at `[DONE]` exactly on the streams in which no blank line ends a
`[DONE]` event. -/
theorem stopsAtDone_iff {stream : Bytes} (hSplits : Splits stream reads) :
    StopsAtDone reads ↔ blankEndsDone [] 0 (completeLines stream) = false := by
  rw [stopsAtDone_iff_acts, ← Bool.not_eq_true, ← blankDone_iff_stream hSplits, not_exists]

/-! ## Behind the end marker -/

/-- `data:[DONE]`, a blank line, `data:x`, a blank line. -/
def doneStream : Bytes :=
  [100, 97, 116, 97, 58, 91, 68, 79, 78, 69, 93, 10, 10, 100, 97, 116, 97, 58, 120, 10, 10]

/-- `data:[DONE]` that the end of the stream cuts off. -/
def cutDoneStream : Bytes := [100, 97, 116, 97, 58, 91, 68, 79, 78, 69, 93]

theorem stopsAtDone_cutDoneStream : StopsAtDone [cutDoneStream] := by
  have hSplits : Splits cutDoneStream [cutDoneStream] := ⟨rfl, by decide, by decide⟩
  exact (stopsAtDone_iff hSplits).mpr (by decide +kernel)

/-- Behind `[DONE]` the source is asked again, and there is one more event: another
one when the stream arrives in one read than when it arrives in two. -/
theorem event_behind_done :
    actsOf [doneStream] 0 = [.ask, .blankDone, .ask] ∧
      outcomeOf [doneStream] 0 = .ok (some "x\n\n") ∧
      outcomeOf [doneStream.take 13, doneStream.drop 13] 0 = .ok (some "x") ∧
      ¬ StopsAtDone [doneStream] := by
  have hActs : actsOf [doneStream] 0 = [.ask, .blankDone, .ask] := by decide +kernel
  refine ⟨hActs, by decide +kernel, by decide +kernel, fun hStops => ?_⟩
  have hAfter := (hStops 0 [.ask] .blankDone [.ask] hActs rfl).1
  cases hAfter

end SseReader

end Choreographr.Protocols
