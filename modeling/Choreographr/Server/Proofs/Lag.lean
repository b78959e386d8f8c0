import Choreographr.Server.Lag
import Choreographr.Lib.Counting
import Mathlib.Algebra.Ring.Int.Defs

/-!
# The lag counters are exact

What a trace says about a client is four lists: the messages its queue has accepted, and
those that were written, discarded and dropped. The queue is first in, first out, so the
accepted ones are the written ones, the discarded ones, the dropped ones and those still
held, in that order. A counter holds the bytes of the messages that are held, of those
that some thread has in hand between its counter update and its queue operation, and of
those that were dropped with the receiver.
-/

namespace Choreographr.Server.Lag

open Lib

variable {c : Nat} {es os : List Event} {q : Sink} {s s' : State}

/-! ## What a trace says -/

def acceptedBy (p : Nat → Bool) : Event → Option Message
  | .accepted c m _ => if p c then some m else none
  | _ => none

/-- The messages that the queues of the chosen clients have accepted. -/
def accepted (p : Nat → Bool) (os : List Event) : List Message := os.filterMap (acceptedBy p)

def lateBy (p : Nat → Bool) : Event → Option Message
  | .accepted c m late => if p c && late then some m else none
  | _ => none

/-- Those among them that came after the last drain. -/
def acceptedLate (p : Nat → Bool) (os : List Event) : List Message := os.filterMap (lateBy p)

def writtenBy (p : Nat → Bool) : Event → Option Message
  | .written c m => if p c then some m else none
  | _ => none

def written (p : Nat → Bool) (os : List Event) : List Message := os.filterMap (writtenBy p)

def discardedBy (p : Nat → Bool) : Event → Option Message
  | .discarded c m => if p c then some m else none
  | _ => none

def discarded (p : Nat → Bool) (os : List Event) : List Message := os.filterMap (discardedBy p)

def droppedBy (p : Nat → Bool) : Event → Option Message
  | .dropped c m => if p c then some m else none
  | _ => none

def dropped (p : Nat → Bool) (os : List Event) : List Message := os.filterMap (droppedBy p)

/-- One client. -/
def only (c : Nat) (d : Nat) : Bool := decide (d = c)

/-- Every client. -/
def every (_ : Nat) : Bool := true

/-- The bytes of a list of messages, in a given measure. -/
def bytes (f : Message → Nat) (ms : List Message) : Int := (ms.map fun m => (f m : Int)).sum

/-- The bytes that were accepted and neither written nor discarded, by the writer or with the
receiver. -/
def pending (f : Message → Nat) (p : Nat → Bool) (os : List Event) : Int :=
  bytes f (accepted p os) - bytes f (written p os) - bytes f (discarded p os) -
    bytes f (dropped p os)

/-! ## What a state holds -/

namespace Sink

/-- The messages that were accepted and are neither written nor discarded. -/
def held (q : Sink) : List Message :=
  match q.writer with
  | .writing m => m :: q.queue
  | _ => q.queue

/-- What the writer has yet to take off the counter of its client. -/
def unsettledClient (q : Sink) : Int :=
  match q.writer with
  | .settling m _ => m.clientSize
  | _ => 0

/-- What the writer has yet to take off the shared counter. -/
def unsettled (q : Sink) : Int :=
  match q.writer with
  | .settling m _ => m.size
  | .settlingGlobal m _ => m.size
  | _ => 0

/-- The writer has not stopped, and will not with the message it is at. -/
def running (q : Sink) : Bool :=
  match q.writer with
  | .receiving => true
  | .writing _ => true
  | .settling _ stop => !stop
  | .settlingGlobal _ stop => !stop
  | _ => false

/-- What the queue has taken after the last drain. -/
def late (q : Sink) : List Message := if q.writer = .drained then q.queue else []

end Sink

/-- What a producer has added to the counter of a client for a message that is not in the
queue. -/
def Send.counted (c : Nat) (x : Send) : Int :=
  if x.client = c ∧ (x.phase = .send ∨ x.phase = .restoreClient) then x.message.clientSize else 0

namespace State

def countedClient (s : State) (c : Nat) : Int := (s.sends.map (Send.counted c)).sum

def counted (s : State) : Int := (s.sends.map fun x => (x.message.size : Int)).sum

def held (s : State) : Int := (s.sinks.map fun q => bytes Message.size q.held).sum

def unsettled (s : State) : Int := (s.sinks.map Sink.unsettled).sum

end State

/-! ## The lists of a trace -/

section Trace

variable {p : Nat → Bool}

@[simp] theorem accepted_append :
    accepted p (os ++ es) = accepted p os ++ accepted p es := List.filterMap_append

@[simp] theorem acceptedLate_append :
    acceptedLate p (os ++ es) = acceptedLate p os ++ acceptedLate p es := List.filterMap_append

@[simp] theorem written_append :
    written p (os ++ es) = written p os ++ written p es := List.filterMap_append

@[simp] theorem discarded_append :
    discarded p (os ++ es) = discarded p os ++ discarded p es := List.filterMap_append

@[simp] theorem dropped_append :
    dropped p (os ++ es) = dropped p os ++ dropped p es := List.filterMap_append

variable (e : Event)

theorem accepted_singleton : accepted p [e] = (acceptedBy p e).toList := by
  cases h : acceptedBy p e <;> simp [accepted, h]

theorem acceptedLate_singleton : acceptedLate p [e] = (lateBy p e).toList := by
  cases h : lateBy p e <;> simp [acceptedLate, h]

theorem written_singleton : written p [e] = (writtenBy p e).toList := by
  cases h : writtenBy p e <;> simp [written, h]

theorem discarded_singleton : discarded p [e] = (discardedBy p e).toList := by
  cases h : discardedBy p e <;> simp [discarded, h]

theorem dropped_singleton : dropped p [e] = (droppedBy p e).toList := by
  cases h : droppedBy p e <;> simp [dropped, h]

@[simp] theorem only_self (c : Nat) : only c c = true := by simp [only]

end Trace

section Bytes

variable {f : Message → Nat}

@[simp] theorem bytes_nil : bytes f [] = 0 := rfl

@[simp] theorem bytes_cons (m : Message) (ms : List Message) :
    bytes f (m :: ms) = f m + bytes f ms := by simp [bytes]

@[simp] theorem bytes_append (xs ys : List Message) :
    bytes f (xs ++ ys) = bytes f xs + bytes f ys := by simp [bytes]

theorem sum_map_nonneg {α : Type} {g : α → Int} (h : ∀ a, 0 ≤ g a) (xs : List α) :
    0 ≤ (xs.map g).sum := by
  induction xs with
  | nil => simp
  | cons x rest ih =>
    have hx := h x
    rw [List.map_cons, List.sum_cons]
    omega

theorem bytes_nonneg (ms : List Message) : 0 ≤ bytes f ms :=
  sum_map_nonneg (fun m => Int.natCast_nonneg (f m)) ms

end Bytes

section Dropping

variable {p : Nat → Bool} {ms : List Message}

theorem dropped_map : dropped p (ms.map (Event.dropped c)) = if p c then ms else [] := by
  induction ms with
  | nil => simp [dropped]
  | cons m rest ih =>
    rw [dropped] at ih
    cases hp : p c <;> simp_all [dropped, droppedBy]

theorem accepted_map_dropped : accepted p (ms.map (Event.dropped c)) = [] := by
  simp [accepted, acceptedBy]

theorem acceptedLate_map_dropped : acceptedLate p (ms.map (Event.dropped c)) = [] := by
  simp [acceptedLate, lateBy]

theorem written_map_dropped : written p (ms.map (Event.dropped c)) = [] := by
  simp [written, writtenBy]

theorem discarded_map_dropped : discarded p (ms.map (Event.dropped c)) = [] := by
  simp [discarded, discardedBy]

end Dropping

/-! ## The invariant -/

/-- A sink accounts for what the trace says about its client. `counted` is what producers have
added to the counter ahead of the queue. -/
structure SinkOk (os : List Event) (counted : Int) (c : Nat) (q : Sink) : Prop where
  balance : q.bytesInFlight = bytes Message.clientSize q.held + q.unsettledClient +
    bytes Message.clientSize (dropped (only c) os) + counted
  order : accepted (only c) os =
    written (only c) os ++ discarded (only c) os ++ dropped (only c) os ++ q.held
  running : q.running = true → discarded (only c) os = []
  late : acceptedLate (only c) os = dropped (only c) os ++ q.late
  dropped : q.writer ≠ .gone → dropped (only c) os = []
  gone : q.writer = .gone → q.queue = []

/-- The counters account for the trace. -/
structure Balanced (os : List Event) (s : State) : Prop where
  sinks : ∀ (c : Nat) q, s.sinks[c]? = some q → SinkOk os (s.countedClient c) c q
  /-- No trace speaks about a client that has not connected. -/
  fresh : ∀ (c : Nat), s.sinks.length ≤ c →
    SinkOk os (s.countedClient c) c ({} : Sink)
  global : s.global = s.held + s.unsettled + bytes Message.size (dropped every os) + s.counted
  held : bytes Message.size (accepted every os) =
    bytes Message.size (written every os) + bytes Message.size (discarded every os) +
      bytes Message.size (dropped every os) + s.held

/-- Every event is about one client. -/
def About (c : Nat) (es : List Event) : Prop :=
  ∀ e ∈ es, ∃ m, e = .accepted c m true ∨ e = .accepted c m false ∨ e = .written c m ∨
    e = .discarded c m ∨ e = .dropped c m

theorem About.silent {d : Nat} (h : About c es) (hNe : d ≠ c) :
    accepted (only d) es = [] ∧ acceptedLate (only d) es = [] ∧ written (only d) es = [] ∧
      discarded (only d) es = [] ∧ Lag.dropped (only d) es = [] := by
  have hOnly : only d c = false := by simp [only, Ne.symm hNe]
  refine ⟨?_, ?_, ?_, ?_, ?_⟩
  all_goals
    refine List.filterMap_eq_nil_iff.mpr ?_
    intro e hMem
    obtain ⟨m, rfl | rfl | rfl | rfl | rfl⟩ := h e hMem
    all_goals simp [acceptedBy, lateBy, writtenBy, discardedBy, droppedBy, hOnly]

theorem SinkOk.frame {counted : Int} {d : Nat} (h : SinkOk os counted d q) (hAbout : About c es)
    (hNe : d ≠ c) : SinkOk (os ++ es) counted d q := by
  obtain ⟨hAccepted, hLate, hWritten, hDiscarded, hDropped⟩ := hAbout.silent hNe
  constructor
  · simpa [hDropped] using h.balance
  · simpa [hAccepted, hWritten, hDiscarded, hDropped] using h.order
  · simpa [hDiscarded] using h.running
  · simpa [hLate, hDropped] using h.late
  · simpa [hDropped] using h.dropped
  · exact h.gone

theorem SinkOk.recount {counted counted' b : Int} (h : SinkOk os counted c q)
    (hSum : b + counted = q.bytesInFlight + counted') :
    SinkOk os counted' c { q with bytesInFlight := b } where
  balance := by
    have hBalance := h.balance
    change b = bytes Message.clientSize q.held + q.unsettledClient + _ + counted'
    omega
  order := h.order
  running := h.running
  late := h.late
  dropped := h.dropped
  gone := h.gone

/-- The rule for a step that changes one sink. -/
theorem Balanced.change {q' : Sink} (h : Balanced os s) (hSink : s.sinks[c]? = some q)
    (hAbout : About c es) (hSinks : s'.sinks = s.sinks.set c q')
    (hOthers : ∀ d, d ≠ c → s'.countedClient d = s.countedClient d)
    (hOk : SinkOk (os ++ es) (s'.countedClient c) c q')
    (hGlobal : s'.global + bytes Message.size q.held + q.unsettled + s.counted =
      s.global + bytes Message.size q'.held + q'.unsettled +
        bytes Message.size (Lag.dropped every es) + s'.counted)
    (hHeld : bytes Message.size (accepted every es) + bytes Message.size q.held =
      bytes Message.size (written every es) + bytes Message.size (discarded every es) +
        bytes Message.size (Lag.dropped every es) + bytes Message.size q'.held) :
    Balanced (os ++ es) s' := by
  have hLength : c < s.sinks.length := List.getElem?_eq_some_iff.mp hSink |>.1
  have hHeldSum : s'.held + bytes Message.size q.held = s.held + bytes Message.size q'.held := by
    rw [State.held, hSinks]
    exact sum_map_set s.sinks (fun q => bytes Message.size q.held) q' hSink
  have hUnsettledSum : s'.unsettled + q.unsettled = s.unsettled + q'.unsettled := by
    rw [State.unsettled, hSinks]
    exact sum_map_set s.sinks Sink.unsettled q' hSink
  constructor
  · intro d r hGet
    rw [hSinks, List.getElem?_set] at hGet
    split at hGet
    · rename_i hEq
      subst hEq
      cases hGet
      exact hOk
    · rename_i hNe
      rw [hOthers d (Ne.symm hNe)]
      exact (h.sinks d r hGet).frame hAbout (Ne.symm hNe)
  · intro d hd
    rw [hSinks, List.length_set] at hd
    have hNe : d ≠ c := by omega
    rw [hOthers d hNe]
    exact (h.fresh d hd).frame hAbout hNe
  · have := h.global
    rw [dropped_append, bytes_append]
    omega
  · have := h.held
    simp only [accepted_append, written_append, discarded_append, dropped_append, bytes_append]
    omega

/-- The rule for a step that changes the counter of one client. -/
theorem Balanced.recount {b : Int} (h : Balanced os s) (hSink : s.sinks[c]? = some q)
    (hSinks : s'.sinks = s.sinks.set c { q with bytesInFlight := b })
    (hOthers : ∀ d, d ≠ c → s'.countedClient d = s.countedClient d)
    (hSum : b + s.countedClient c = q.bytesInFlight + s'.countedClient c)
    (hGlobal : s'.global + s.counted = s.global + s'.counted) : Balanced os s' := by
  have hOk := (h.sinks c q hSink).recount hSum
  have hChange : Balanced (os ++ []) s' := by
    refine h.change hSink (by simp [About]) hSinks hOthers ?_ ?_ ?_
    · rw [List.append_nil]
      exact hOk
    · change s'.global + bytes Message.size q.held + q.unsettled + s.counted =
        s.global + bytes Message.size q.held + q.unsettled + 0 + s'.counted
      omega
    · change 0 + bytes Message.size q.held = 0 + 0 + 0 + bytes Message.size q.held
      omega
  rw [List.append_nil] at hChange
  exact hChange

theorem balanced_init : Balanced [] {} where
  sinks c q hSink := by simp at hSink
  fresh c _ := by
    constructor <;> simp [accepted, written, discarded, acceptedLate, Lag.dropped, Sink.held,
      Sink.unsettledClient, Sink.late, State.countedClient]
  global := rfl
  held := rfl

/-! ## The producers -/

section Sends

variable {index : Nat} {x : Send}

theorem countedClient_setSend (h : s.sends[index]? = some x) (phase : SendPhase) (c : Nat) :
    (s.setSend index phase).countedClient c + x.counted c =
      s.countedClient c + Send.counted c { x with phase := phase } :=
  sum_map_modify s.sends (Send.counted c) (fun x => { x with phase := phase }) h

theorem counted_setSend (phase : SendPhase) : (s.setSend index phase).counted = s.counted :=
  congrArg List.sum (@map_modify_of_eq _ index s.sends _ (fun x => (x.message.size : Int))
    (fun x => { x with phase := phase }) fun _ _ => rfl)

theorem countedClient_endSend (h : s.sends[index]? = some x) (c : Nat) :
    (s.endSend index).countedClient c + x.counted c = s.countedClient c :=
  sum_map_eraseIdx s.sends (Send.counted c) h

theorem counted_endSend (h : s.sends[index]? = some x) :
    (s.endSend index).counted + x.message.size = s.counted :=
  sum_map_eraseIdx s.sends (fun x => (x.message.size : Int)) h

theorem Send.counted_of_ne (h : c ≠ x.client) : x.counted c = 0 := by
  rw [Send.counted, if_neg]
  exact fun hAnd => h hAnd.1.symm

theorem countedClient_setSend_of_ne (h : s.sends[index]? = some x) (phase : SendPhase)
    (hNe : c ≠ x.client) : (s.setSend index phase).countedClient c = s.countedClient c := by
  have hSum := countedClient_setSend h phase c
  rw [Send.counted_of_ne hNe, Send.counted_of_ne (x := { x with phase := phase }) hNe] at hSum
  omega

theorem countedClient_endSend_of_ne (h : s.sends[index]? = some x) (hNe : c ≠ x.client) :
    (s.endSend index).countedClient c = s.countedClient c := by
  have hSum := countedClient_endSend h c
  rw [Send.counted_of_ne hNe] at hSum
  omega

end Sends

theorem Balanced.beginSend {m : Message} (h : Balanced os s)
    (hStep : s.beginSend c m = some (s', es)) : Balanced (os ++ es) s' := by
  unfold State.beginSend at hStep
  split at hStep
  · cases hStep
  · split at hStep
    · cases hStep
      have hClient : ∀ d, State.countedClient ({ s with
          global := s.global + m.size
          sends := s.sends ++ [{ client := c, message := m }] } : State) d =
          s.countedClient d := by
        intro d
        simp [State.countedClient, Send.counted]
      rw [List.append_nil]
      constructor
      · intro d q hGet
        rw [hClient]
        exact h.sinks d q hGet
      · intro d hd
        rw [hClient]
        exact h.fresh d hd
      · have := h.global
        simp only [State.held, State.unsettled, State.counted, List.map_append, List.sum_append,
          List.map_cons, List.map_nil, List.sum_cons, List.sum_nil] at this ⊢
        omega
      · exact h.held
    · cases hStep

/-- The queue takes the message of a producer. -/
theorem Balanced.accept {index : Nat} {x : Send} (h : Balanced os s)
    (hSend : s.sends[index]? = some x) (hSink : s.sinks[x.client]? = some q)
    (hPhase : x.phase = .send) (hWriter : q.writer ≠ .gone) :
    Balanced (os ++ [.accepted x.client x.message (decide (q.writer = .drained))])
      ((s.setSink x.client { q with queue := q.queue ++ [x.message] }).endSend index) := by
  have hOk := h.sinks x.client q hSink
  have hSum := countedClient_endSend hSend x.client
  have hAll := counted_endSend hSend
  have hBefore : x.counted x.client = x.message.clientSize := by simp [Send.counted, hPhase]
  have hHeld : Sink.held { q with queue := q.queue ++ [x.message] } = q.held ++ [x.message] := by
    simp only [Sink.held]
    split <;> rfl
  refine h.change hSink ?_ rfl (fun d hd => countedClient_endSend_of_ne hSend hd) ?_ ?_ ?_
  · intro e hMem
    rw [List.mem_singleton] at hMem
    subst hMem
    refine ⟨x.message, ?_⟩
    cases decide (q.writer = .drained) <;> simp
  · constructor
    · have hBalance := hOk.balance
      rw [hHeld]
      simp only [dropped_append, bytes_append, bytes_cons, bytes_nil]
      change q.bytesInFlight = _ + q.unsettledClient + (_ + 0) + (s.endSend index).countedClient _
      omega
    · rw [hHeld]
      simp [hOk.order, accepted_singleton, acceptedBy, written_singleton, writtenBy,
        discarded_singleton, discardedBy, dropped_singleton, droppedBy]
    · change q.running = true → _
      simpa [discarded_singleton, discardedBy] using hOk.running
    · have hLate := hOk.late
      by_cases hDrained : q.writer = .drained
      · simp only [Sink.late, if_pos hDrained] at hLate ⊢
        simp [hLate, acceptedLate_singleton, lateBy, dropped_singleton, droppedBy, hDrained]
      · simp only [Sink.late, if_neg hDrained] at hLate ⊢
        simp [hLate, acceptedLate_singleton, lateBy, dropped_singleton, droppedBy, hDrained]
    · simpa [dropped_singleton, droppedBy] using hOk.dropped
    · exact fun hGone => absurd hGone hWriter
  · rw [hHeld]
    simp only [bytes_append, bytes_cons, bytes_nil]
    change s.global + _ + q.unsettled + s.counted =
      s.global + _ + q.unsettled + 0 + (s.endSend index).counted
    omega
  · rw [hHeld]
    simp only [bytes_append, bytes_cons, bytes_nil]
    change bytes Message.size [x.message] + _ = 0 + 0 + 0 + _
    simp only [bytes_cons, bytes_nil]
    omega

theorem Balanced.sendStep {index : Nat} (h : Balanced os s)
    (hStep : s.sendStep index = some (s', es)) : Balanced (os ++ es) s' := by
  unfold State.sendStep at hStep
  split at hStep
  · cases hStep
  · rename_i x hSend
    split at hStep
    · cases hStep
    · rename_i q hSink
      have hOk := h.sinks x.client q hSink
      split at hStep
      · rename_i hPhase
        cases hStep
        have hSum := countedClient_setSend hSend .send x.client
        have hBefore : x.counted x.client = 0 := by simp [Send.counted, hPhase]
        have hAfter : Send.counted x.client { x with phase := .send } = x.message.clientSize := by
          simp [Send.counted]
        rw [List.append_nil]
        refine h.recount hSink rfl (fun d hd => countedClient_setSend_of_ne hSend .send hd) ?_ ?_
        · change q.bytesInFlight + x.message.clientSize + s.countedClient x.client =
            q.bytesInFlight + (s.setSend index .send).countedClient x.client
          omega
        · exact congrArg (s.global + ·) (counted_setSend _).symm
      · rename_i hPhase
        split at hStep
        · cases hStep
          have hSum := countedClient_setSend hSend .restoreClient x.client
          have hBefore : x.counted x.client = x.message.clientSize := by
            simp [Send.counted, hPhase]
          have hAfter : Send.counted x.client { x with phase := .restoreClient } =
              x.message.clientSize := by
            simp [Send.counted]
          rw [List.append_nil]
          refine h.recount (b := q.bytesInFlight) hSink ?_
            (fun d hd => countedClient_setSend_of_ne hSend .restoreClient hd) ?_ ?_
          · exact (set_eq_self_of_getElem? hSink).symm
          · omega
          · exact congrArg (s.global + ·) (counted_setSend _).symm
        · rename_i hWriter
          cases hStep
          exact h.accept hSend hSink hPhase hWriter
      · rename_i hPhase
        cases hStep
        have hSum := countedClient_setSend hSend .restoreGlobal x.client
        have hBefore : x.counted x.client = x.message.clientSize := by simp [Send.counted, hPhase]
        have hAfter : Send.counted x.client { x with phase := .restoreGlobal } = 0 := by
          simp [Send.counted]
        rw [List.append_nil]
        refine h.recount hSink rfl
          (fun d hd => countedClient_setSend_of_ne hSend .restoreGlobal hd) ?_ ?_
        · change q.bytesInFlight - x.message.clientSize + s.countedClient x.client =
            q.bytesInFlight + (s.setSend index .restoreGlobal).countedClient x.client
          omega
        · exact congrArg (s.global + ·) (counted_setSend _).symm
      · rename_i hPhase
        cases hStep
        have hSum := countedClient_endSend hSend x.client
        have hAll := counted_endSend hSend
        have hBefore : x.counted x.client = 0 := by simp [Send.counted, hPhase]
        rw [List.append_nil]
        refine h.recount (b := q.bytesInFlight) hSink ?_
          (fun d hd => countedClient_endSend_of_ne hSend hd) ?_ ?_
        · exact (set_eq_self_of_getElem? hSink).symm
        · change q.bytesInFlight + s.countedClient x.client =
            q.bytesInFlight + (s.endSend index).countedClient x.client
          omega
        · change s.global - x.message.size + s.counted = s.global + (s.endSend index).counted
          omega

/-! ## The writers -/

section Writer

variable {n : Int} {m : Message} {rest : List Message}

/-- A step of the writer that no event tells about, and that leaves the held messages alone. -/
theorem SinkOk.move {b : Int} {ms : List Message} {w : WriterPhase} (h : SinkOk os n c q)
    (hGone : q.writer ≠ .gone)
    (hHeld : Sink.held { q with bytesInFlight := b, queue := ms, writer := w } = q.held)
    (hBytes : b + q.unsettledClient =
      q.bytesInFlight + Sink.unsettledClient { q with writer := w })
    (hRunning : Sink.running { q with writer := w } = true → q.running = true)
    (hLate : Sink.late { q with queue := ms, writer := w } = q.late) (hStays : w ≠ .gone) :
    SinkOk os n c { q with bytesInFlight := b, queue := ms, writer := w } where
  balance := by
    have hBalance := h.balance
    rw [hHeld]
    change b = _ + Sink.unsettledClient { q with writer := w } + _ + n
    omega
  order := by
    rw [hHeld]
    exact h.order
  running hRun := h.running (hRunning hRun)
  late := h.late.trans (congrArg (_ ++ ·) hLate.symm)
  dropped _ := h.dropped hGone
  gone hEq := absurd hEq hStays

/-- The message at the head of what is held is written or discarded. -/
theorem SinkOk.leave {e : Event} {stop : Bool} (h : SinkOk os n c q)
    (hLate : q.writer ≠ .drained) (hGone : q.writer ≠ .gone) (hHeld : q.held = m :: rest)
    (hSettled : q.unsettledClient = 0)
    (hEvent : e = .written c m ∧ discarded (only c) os = [] ∨ e = .discarded c m ∧ stop = true) :
    SinkOk (os ++ [e]) n c { q with queue := rest, writer := .settling m stop } where
  balance := by
    have hBalance := h.balance
    rw [hHeld, hSettled, bytes_cons] at hBalance
    have hDropped : Lag.dropped (only c) (os ++ [e]) = Lag.dropped (only c) os := by
      rcases hEvent with ⟨rfl, _⟩ | ⟨rfl, _⟩ <;> simp [dropped_singleton, droppedBy]
    rw [hDropped]
    change q.bytesInFlight = bytes Message.clientSize rest + m.clientSize + _ + n
    omega
  order := by
    have hOrder := h.order
    rw [hHeld, h.dropped hGone] at hOrder
    change _ = _ ++ rest
    rcases hEvent with ⟨rfl, hDiscarded⟩ | ⟨rfl, _⟩
    · simp [hOrder, hDiscarded, h.dropped hGone, accepted_singleton, acceptedBy,
        written_singleton, writtenBy, discarded_singleton, discardedBy, dropped_singleton,
        droppedBy]
    · simp [hOrder, h.dropped hGone, accepted_singleton, acceptedBy, written_singleton,
        writtenBy, discarded_singleton, discardedBy, dropped_singleton, droppedBy]
  running hRun := by
    rcases hEvent with ⟨rfl, hDiscarded⟩ | ⟨rfl, rfl⟩
    · simp [hDiscarded, discarded_singleton, discardedBy]
    · cases hRun
  late := by
    have hBefore := h.late
    rw [Sink.late, if_neg hLate] at hBefore
    rcases hEvent with ⟨rfl, _⟩ | ⟨rfl, _⟩ <;>
      simp [hBefore, Sink.late, acceptedLate_singleton, lateBy, dropped_singleton, droppedBy]
  dropped _ := by
    rcases hEvent with ⟨rfl, _⟩ | ⟨rfl, _⟩ <;>
      simp [h.dropped hGone, dropped_singleton, droppedBy]
  gone hEq := by cases hEq

/-- The receiver is dropped with what came after the last drain. -/
theorem SinkOk.drop (h : SinkOk os n c q) (hWriter : q.writer = .drained) :
    SinkOk (os ++ q.queue.map (Event.dropped c)) n c { q with queue := [], writer := .gone } where
  balance := by
    have hBalance := h.balance
    simp only [Sink.held, Sink.unsettledClient, hWriter] at hBalance
    rw [dropped_append, dropped_map, only_self, if_pos rfl, bytes_append]
    change q.bytesInFlight = 0 + 0 + _ + n
    omega
  order := by
    have hOrder := h.order
    simp only [Sink.held, hWriter] at hOrder
    simp [hOrder, accepted_map_dropped, written_map_dropped, discarded_map_dropped, dropped_map,
      Sink.held]
  running hRun := by cases hRun
  late := by
    have hLate := h.late
    rw [Sink.late, if_pos hWriter] at hLate
    simp [hLate, acceptedLate_map_dropped, dropped_map, Sink.late]
  dropped hNe := absurd rfl hNe
  gone _ := rfl

end Writer

theorem bytes_every_map_dropped {ms : List Message} :
    bytes Message.size (Lag.dropped every (ms.map (Event.dropped c))) = bytes Message.size ms := by
  rw [dropped_map]
  rfl

/-- A step of the writer that no event tells about. -/
theorem Balanced.move {q' : Sink} (h : Balanced os s) (hSink : s.sinks[c]? = some q)
    (hSinks : s'.sinks = s.sinks.set c q') (hSends : s'.sends = s.sends)
    (hOk : SinkOk os (s.countedClient c) c q') (hHeld : q'.held = q.held)
    (hGlobal : s'.global + q.unsettled = s.global + q'.unsettled) : Balanced os s' := by
  have hClient : ∀ d, s'.countedClient d = s.countedClient d := by
    intro d
    rw [State.countedClient, hSends]
    rfl
  have hCounted : s'.counted = s.counted := by
    rw [State.counted, hSends]
    rfl
  have hChange : Balanced (os ++ []) s' := by
    refine h.change hSink (by simp [About]) hSinks (fun d _ => hClient d) ?_ ?_ ?_
    · rw [List.append_nil, hClient]
      exact hOk
    · rw [hHeld, hCounted]
      change _ = s.global + _ + _ + 0 + _
      omega
    · rw [hHeld]
      change 0 + _ = 0 + 0 + 0 + _
      omega
  rw [List.append_nil] at hChange
  exact hChange

/-- The message at the head of what a sink holds leaves it. -/
theorem Balanced.leave {m : Message} {rest : List Message} (e : Event) (stop : Bool)
    (h : Balanced os s) (hSink : s.sinks[c]? = some q) (hLate : q.writer ≠ .drained)
    (hGone : q.writer ≠ .gone) (hHeld : q.held = m :: rest) (hClient : q.unsettledClient = 0)
    (hSettled : q.unsettled = 0)
    (hEvent : e = .written c m ∧ q.running = true ∨ e = .discarded c m ∧ stop = true) :
    Balanced (os ++ [e])
      (s.setSink c { q with queue := rest, writer := .settling m stop }) := by
  have hOk := h.sinks c q hSink
  refine h.change hSink ?_ rfl (fun _ _ => rfl) ?_ ?_ ?_
  · intro f hMem
    rw [List.mem_singleton] at hMem
    subst hMem
    rcases hEvent with ⟨rfl, _⟩ | ⟨rfl, _⟩
    · exact ⟨m, by simp⟩
    · exact ⟨m, by simp⟩
  · exact hOk.leave hLate hGone hHeld hClient
      (hEvent.imp_left fun hWritten => ⟨hWritten.1, hOk.running hWritten.2⟩)
  · rw [hHeld, hSettled, bytes_cons]
    have hDropped : bytes Message.size (Lag.dropped every [e]) = 0 := by
      rcases hEvent with ⟨rfl, _⟩ | ⟨rfl, _⟩ <;> rfl
    rw [hDropped]
    change s.global + _ + 0 + s.counted = s.global + bytes Message.size rest + m.size + 0 + s.counted
    omega
  · rw [hHeld, bytes_cons]
    have hSizes : bytes Message.size (accepted every [e]) = 0 ∧
        bytes Message.size (written every [e]) + bytes Message.size (discarded every [e]) =
          m.size ∧ bytes Message.size (Lag.dropped every [e]) = 0 := by
      rcases hEvent with ⟨rfl, _⟩ | ⟨rfl, _⟩ <;>
        simp [accepted_singleton, acceptedBy, written_singleton, writtenBy, discarded_singleton,
          discardedBy, dropped_singleton, droppedBy, every]
    change _ = _ + _ + _ + bytes Message.size rest
    omega

theorem Balanced.writerStep {taken : Bool} (h : Balanced os s)
    (hStep : s.writerStep c taken = some (s', es)) : Balanced (os ++ es) s' := by
  unfold State.writerStep at hStep
  split at hStep
  · cases hStep
  · rename_i q hSink
    have hOk := h.sinks c q hSink
    split at hStep
    · rename_i m rest hWriter hQueue
      cases hStep
      rw [List.append_nil]
      refine h.move hSink rfl rfl (hOk.move ?_ ?_ ?_ ?_ ?_ ?_) ?_ ?_
      all_goals simp [Sink.held, Sink.unsettledClient, Sink.unsettled, Sink.running, Sink.late,
        State.setSink, hWriter, hQueue]
    · rename_i _ m hWriter
      have hHeld : q.held = m :: q.queue := by simp [Sink.held, hWriter]
      have hLeave := fun e stop => h.leave e stop hSink (by simp [hWriter])
        (by simp [hWriter]) hHeld (by simp [Sink.unsettledClient, hWriter])
        (by simp [Sink.unsettled, hWriter])
      split at hStep
      · cases hStep
        exact hLeave (.written c m) m.stops (.inl ⟨rfl, by simp [Sink.running, hWriter]⟩)
      · cases hStep
        exact hLeave (.discarded c m) true (.inr ⟨rfl, rfl⟩)
    · rename_i _ m stop hWriter
      cases hStep
      rw [List.append_nil]
      refine h.move hSink rfl rfl (hOk.move ?_ ?_ ?_ ?_ ?_ ?_) ?_ ?_
      all_goals simp [Sink.held, Sink.unsettledClient, Sink.unsettled, Sink.running, Sink.late,
        State.setSink, hWriter]
    · rename_i _ m stop hWriter
      cases hStep
      rw [List.append_nil]
      refine h.move hSink rfl rfl (hOk.move ?_ ?_ ?_ ?_ ?_ ?_) ?_ ?_
      all_goals cases stop <;> simp [Sink.held, Sink.unsettledClient, Sink.unsettled,
        Sink.running, Sink.late, hWriter]
    · rename_i m rest hWriter hQueue
      cases hStep
      exact h.leave _ _ hSink (by simp [hWriter]) (by simp [hWriter])
        (by simp [Sink.held, hWriter, hQueue]) (by simp [Sink.unsettledClient, hWriter])
        (by simp [Sink.unsettled, hWriter]) (.inr ⟨rfl, rfl⟩)
    · rename_i hWriter hQueue
      cases hStep
      rw [List.append_nil]
      refine h.move hSink rfl rfl (hOk.move ?_ ?_ ?_ ?_ ?_ ?_) ?_ ?_
      all_goals simp [Sink.held, Sink.unsettledClient, Sink.unsettled, Sink.running, Sink.late,
        State.setSink, hWriter, hQueue]
    · rename_i hWriter
      cases hStep
      refine h.change hSink ?_ rfl (fun _ _ => rfl) (hOk.drop hWriter) ?_ ?_
      · intro e hMem
        obtain ⟨m, -, rfl⟩ := List.mem_map.mp hMem
        exact ⟨m, by simp⟩
      · rw [bytes_every_map_dropped]
        simp [Sink.held, Sink.unsettled, State.setSink, State.counted, hWriter]
      · rw [bytes_every_map_dropped, accepted_map_dropped, written_map_dropped,
          discarded_map_dropped]
        simp [Sink.held, hWriter]
    · cases hStep
    · cases hStep

theorem Balanced.hangUp (h : Balanced os s) (hStep : s.hangUp c = some (s', es)) :
    Balanced (os ++ es) s' := by
  unfold State.hangUp at hStep
  split at hStep
  · cases hStep
  · rename_i q hSink
    have hOk := h.sinks c q hSink
    split at hStep
    · rename_i hIdle
      obtain ⟨hWriter, hQueue, -⟩ := hIdle
      cases hStep
      have hClosed : SinkOk os (s.countedClient c) c { q with opened := false } :=
        ⟨hOk.balance, hOk.order, hOk.running, hOk.late, hOk.dropped, hOk.gone⟩
      rw [List.append_nil]
      refine h.move hSink rfl rfl (hClosed.move ?_ ?_ ?_ ?_ ?_ ?_) ?_ ?_
      all_goals simp [Sink.held, Sink.unsettledClient, Sink.unsettled, Sink.running, Sink.late,
        State.setSink, hWriter]
    · cases hStep

theorem Balanced.connect (h : Balanced os s) :
    Balanced os { s with sinks := s.sinks ++ [({} : Sink)] } where
  sinks c q hGet := by
    rcases getElem?_concat_cases hGet with hOld | ⟨rfl, rfl⟩
    · exact h.sinks c q hOld
    · exact h.fresh _ (Nat.le_refl _)
  fresh c hLength := by
    refine h.fresh c ?_
    rw [List.length_append] at hLength
    omega
  global := by
    have hHeld : ∀ x : Int, x + bytes Message.size (Sink.held {}) = x := fun x => by
      simp [Sink.held]
    have hUnsettled : ∀ x : Int, x + Sink.unsettled {} = x := fun x => by simp [Sink.unsettled]
    have hGlobal := h.global
    simp only [State.held, State.unsettled, State.counted, List.map_append, List.map_cons,
      List.map_nil, List.sum_append, List.sum_cons, List.sum_nil, add_zero, hHeld, hUnsettled]
      at hGlobal ⊢
    exact hGlobal
  held := by simpa [State.held, Sink.held] using h.held

theorem balanced_step {a : Action} (h : Balanced os s) (hStep : machine.step s a = some (s', es)) :
    Balanced (os ++ es) s' := by
  cases a with
  | connect =>
    cases hStep
    rw [List.append_nil]
    exact h.connect
  | beginSend c m => exact h.beginSend hStep
  | send index => exact h.sendStep hStep
  | writer c taken => exact h.writerStep hStep
  | hangUp c => exact h.hangUp hStep

theorem balanced_exec {as : List Action} (hExec : machine.exec {} as = some (s, os)) :
    Balanced os s :=
  Machine.exec_invariant (P := Balanced) balanced_step balanced_init hExec

/-! ## The counters -/

theorem Send.counted_nonneg (c : Nat) (x : Send) : 0 ≤ x.counted c := by
  rw [Send.counted]
  split <;> omega

theorem Sink.unsettledClient_nonneg (q : Sink) : 0 ≤ q.unsettledClient := by
  simp only [Sink.unsettledClient]
  split <;> omega

theorem Sink.unsettled_nonneg (q : Sink) : 0 ≤ q.unsettled := by
  simp only [Sink.unsettled]
  split <;> omega

theorem SinkOk.pending_eq {n : Int} (h : SinkOk os n c q) (f : Message → Nat) :
    pending f (only c) os = bytes f q.held := by
  rw [pending, h.order]
  simp only [bytes_append]
  omega

theorem SinkOk.dropped_isPrefix {n : Int} (h : SinkOk os n c q) :
    Lag.dropped (only c) os <+: acceptedLate (only c) os :=
  ⟨q.late, h.late.symm⟩

theorem SinkOk.dropped_of_running {n : Int} (h : SinkOk os n c q) (hRunning : q.running = true) :
    Lag.dropped (only c) os = [] := by
  refine h.dropped ?_
  intro hGone
  rw [Sink.running, hGone] at hRunning
  cases hRunning

/-- In every state that is reached, a counter holds what is pending, what a thread has in hand
between its counter update and its queue operation, and what came into the queue after the last
drain and was dropped with it. What a queue accepts is written in order, with nothing skipped
until the writer stops. -/
theorem lag_counters_exact {as : List Action} {s : State} {os : List Event}
    (hExec : machine.exec {} as = some (s, os)) :
    (∀ (c : Nat) q, s.sinks[c]? = some q →
      0 ≤ q.bytesInFlight ∧
      q.bytesInFlight = pending Message.clientSize (only c) os +
        (q.unsettledClient + s.countedClient c) +
        bytes Message.clientSize (dropped (only c) os) ∧
      accepted (only c) os =
        written (only c) os ++ discarded (only c) os ++ dropped (only c) os ++ q.held ∧
      (q.running = true → discarded (only c) os = [] ∧ dropped (only c) os = [])) ∧
    0 ≤ s.global ∧
    s.global = pending Message.size every os + (s.unsettled + s.counted) +
      bytes Message.size (dropped every os) ∧
    ∀ c, dropped (only c) os <+: acceptedLate (only c) os := by
  have h := balanced_exec hExec
  refine ⟨?_, ?_, ?_, ?_⟩
  · intro c q hSink
    have hOk := h.sinks c q hSink
    have hPending := hOk.pending_eq Message.clientSize
    have hHeld := bytes_nonneg (f := Message.clientSize) q.held
    have hDropped := bytes_nonneg (f := Message.clientSize) (dropped (only c) os)
    have hUnsettled := q.unsettledClient_nonneg
    have hCounted : 0 ≤ s.countedClient c := sum_map_nonneg (Send.counted_nonneg c) s.sends
    have hBalance := hOk.balance
    refine ⟨by omega, by omega, hOk.order, ?_⟩
    exact fun hRunning => ⟨hOk.running hRunning, hOk.dropped_of_running hRunning⟩
  · have hHeld : 0 ≤ s.held := sum_map_nonneg (fun q : Sink => bytes_nonneg q.held) s.sinks
    have hUnsettled : 0 ≤ s.unsettled := sum_map_nonneg Sink.unsettled_nonneg s.sinks
    have hDropped := bytes_nonneg (f := Message.size) (dropped every os)
    have hCounted : 0 ≤ s.counted := 
      sum_map_nonneg (fun x : Send => Int.natCast_nonneg x.message.size) s.sends
    have hGlobal := h.global
    omega
  · have hGlobal := h.global
    have hHeld := h.held
    rw [pending]
    omega
  · intro c
    cases hSink : s.sinks[c]? with
    | some q => exact (h.sinks c q hSink).dropped_isPrefix
    | none => exact (h.fresh c (List.getElem?_eq_none_iff.mp hSink)).dropped_isPrefix

/-- A message that is counted, sent, taken and written, with a second one on its way. -/
def sampleRun : List Action :=
  [.connect, .beginSend 0 ⟨.other, 5⟩, .send 0, .send 0, .writer 0 true, .writer 0 true,
    .beginSend 0 ⟨.image, 7⟩, .send 0]

theorem sample_counters_exact :
    ∃ s os, machine.exec {} sampleRun = some (s, os) ∧
      s.global = pending Message.size every os + (s.unsettled + s.counted) +
        bytes Message.size (dropped every os) := by
  have hRun : machine.check {} sampleRun (fun _ _ => true) = true := by decide
  obtain ⟨s, os, hExec, -⟩ := Machine.exists_of_check hRun
  exact ⟨s, os, hExec, (lag_counters_exact hExec).2.2.1⟩

/-- A producer counts a message before it sends it: both counters show its bytes while nothing
has been accepted. -/
theorem counters_run_ahead :
    ∃ s os q, machine.exec {} [.connect, .beginSend 0 ⟨.other, 5⟩, .send 0] = some (s, os) ∧
      s.sinks[0]? = some q ∧ acceptedLate every os = [] ∧
      q.bytesInFlight ≠ pending Message.clientSize (only 0) os ∧
      s.global ≠ pending Message.size every os :=
  ⟨_, _, _, rfl, rfl, rfl, by decide, by decide⟩

end Choreographr.Server.Lag
