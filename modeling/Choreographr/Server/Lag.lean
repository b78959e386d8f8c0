import Choreographr.Lib.Machine

/-!
# The lag counters

Each client has an unbounded queue, a counter of the bytes in it, and a writer thread
that takes messages from the queue and writes them to its socket. One more counter is
shared by all clients. A producer adds the size of a message to both counters before it
sends the message, and takes it off again if the queue is closed; the writer takes it
off after it has taken the message. Each of these is a step of its own, and the steps of
all threads interleave in any order.
-/

namespace Choreographr.Server.Lag

open Lib

/-- The kinds of messages that the accounting and the writer tell apart. -/
inductive MessageKind where
  | image
  | shuttingDown
  | evicted
  | other
deriving DecidableEq

structure Message where
  kind : MessageKind
  /-- `approx_wire_size`. -/
  size : Nat
deriving DecidableEq

namespace Message

/-- A solicited image is not counted for its client. -/
def countsTowardClientLag (m : Message) : Bool := m.kind ≠ .image

/-- What the message adds to the counter of its client. -/
def clientSize (m : Message) : Nat := if m.countsTowardClientLag then m.size else 0

/-- The writer stops behind the message. -/
def stops (m : Message) : Bool := m.kind = .shuttingDown || m.kind = .evicted

end Message

/-- Where a writer thread stands. -/
inductive WriterPhase where
  /-- It waits for a message. -/
  | receiving
  | writing (m : Message)
  /-- The message has left the queue and is to be taken off the client's counter. -/
  | settling (m : Message) (stop : Bool)
  /-- It is to be taken off the shared counter too. -/
  | settlingGlobal (m : Message) (stop : Bool)
  /-- The loop has stopped, and what is left in the queue is discarded. -/
  | draining
  /-- The last drain is over, and the queue still takes messages. -/
  | drained
  /-- The receiver is dropped. -/
  | gone
deriving DecidableEq

/-- The queue of a client with its counter and its writer. -/
structure Sink where
  /-- Some sender of the queue is left. -/
  opened : Bool := true
  bytesInFlight : Int := 0
  queue : List Message := []
  writer : WriterPhase := .receiving

/-- Where a producer stands that sends a message. -/
inductive SendPhase where
  /-- The message is counted in the shared counter. -/
  | countClient
  /-- It is counted in both. -/
  | send
  /-- The queue was closed. -/
  | restoreClient
  | restoreGlobal
deriving DecidableEq

structure Send where
  client : Nat
  message : Message
  phase : SendPhase := .countClient

structure State where
  global : Int := 0
  sinks : List Sink := []
  sends : List Send := []

inductive Event where
  /-- A queue has taken a message, after the last drain or before. -/
  | accepted (client : Nat) (m : Message) (late : Bool)
  | written (client : Nat) (m : Message)
  | discarded (client : Nat) (m : Message)
  /-- The message was still in the queue when its receiver was dropped. -/
  | dropped (client : Nat) (m : Message)
deriving DecidableEq

inductive Action where
  | connect
  /-- A producer begins to send: `global.fetch_add`. -/
  | beginSend (client : Nat) (m : Message)
  /-- A producer goes on. -/
  | send (index : Nat)
  /-- A writer goes on; the flag says whether its socket takes what it writes. -/
  | writer (client : Nat) (taken : Bool)
  /-- Every sender of a queue is dropped. -/
  | hangUp (client : Nat)

namespace State

variable (s : State)

def setSink (client : Nat) (q : Sink) : State := { s with sinks := s.sinks.set client q }

def setSend (index : Nat) (phase : SendPhase) : State :=
  { s with sends := s.sends.modify index fun x => { x with phase := phase } }

def endSend (index : Nat) : State := { s with sends := s.sends.eraseIdx index }

def beginSend (client : Nat) (m : Message) : Option (State × List Event) :=
  match s.sinks[client]? with
  | none => none
  | some q =>
      if q.opened then
        some ({ s with
          global := s.global + m.size
          sends := s.sends ++ [{ client := client, message := m }] }, [])
      else none

/-- `send_accounted`, step by step. -/
def sendStep (index : Nat) : Option (State × List Event) :=
  match s.sends[index]? with
  | none => none
  | some x =>
      match s.sinks[x.client]? with
      | none => none
      | some q =>
          match x.phase with
          | .countClient =>
              some ((s.setSink x.client
                { q with bytesInFlight := q.bytesInFlight + x.message.clientSize }).setSend index
                  .send, [])
          | .send =>
              if q.writer = .gone then some (s.setSend index .restoreClient, [])
              else
                some ((s.setSink x.client { q with queue := q.queue ++ [x.message] }).endSend index,
                  [.accepted x.client x.message (decide (q.writer = .drained))])
          | .restoreClient =>
              some ((s.setSink x.client
                { q with bytesInFlight := q.bytesInFlight - x.message.clientSize }).setSend index
                  .restoreGlobal, [])
          | .restoreGlobal =>
              some ({ s.endSend index with global := s.global - x.message.size }, [])

/-- `writer_thread`, step by step. -/
def writerStep (client : Nat) (taken : Bool) : Option (State × List Event) :=
  match s.sinks[client]? with
  | none => none
  | some q =>
      match q.writer, q.queue with
      | .receiving, m :: rest =>
          some (s.setSink client { q with queue := rest, writer := .writing m }, [])
      | .writing m, _ =>
          if taken then
            some (s.setSink client { q with writer := .settling m m.stops }, [.written client m])
          else some (s.setSink client { q with writer := .settling m true }, [.discarded client m])
      | .settling m stop, _ =>
          some (s.setSink client
            { q with
              bytesInFlight := q.bytesInFlight - m.clientSize
              writer := .settlingGlobal m stop }, [])
      | .settlingGlobal m stop, _ =>
          some ({ s.setSink client
              { q with writer := if stop then .draining else .receiving } with
            global := s.global - m.size }, [])
      | .draining, m :: rest =>
          some (s.setSink client { q with queue := rest, writer := .settling m true },
            [.discarded client m])
      | .draining, [] => some (s.setSink client { q with writer := .drained }, [])
      | .drained, queue =>
          some (s.setSink client { q with queue := [], writer := .gone },
            queue.map (Event.dropped client))
      | .receiving, [] | .gone, _ => none

/-- The loop of a writer ends when no sender is left and the queue is empty. -/
def hangUp (client : Nat) : Option (State × List Event) :=
  match s.sinks[client]? with
  | none => none
  | some q =>
      if q.writer = .receiving ∧ q.queue = [] ∧ ∀ x ∈ s.sends, x.client ≠ client then
        some (s.setSink client { q with opened := false, writer := .draining }, [])
      else none

def step : Action → Option (State × List Event)
  | .connect => some ({ s with sinks := s.sinks ++ [({} : Sink)] }, [])
  | .beginSend client m => s.beginSend client m
  | .send index => s.sendStep index
  | .writer client taken => s.writerStep client taken
  | .hangUp client => s.hangUp client

end State

/-- The transition system of the producers and the writers. -/
def machine : Machine State Action Event := ⟨State.step⟩

end Choreographr.Server.Lag
