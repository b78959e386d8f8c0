import Choreographr.Daemon.State

/-!
# Session threads

`processCommand` handles one command of a session thread. It changes the thread's
own state and lists what the thread does next (`effects`); the flag says that the
thread leaves its loop, and nothing it is sent from then on is handled.

What a handler makes of the session's record and turns does not matter here and
comes from the environment; the parent of a session never changes.
-/

namespace Choreographr.Daemon

open Session

/-- What is decided elsewhere while a thread handles one command. -/
structure ProcessEnv where
  /-- An input is not blank, and its provider and its model are there. -/
  runnable : Bool := true
  /-- The record, the list entry and the turns as the handler leaves them. -/
  record : SessionRecord
  metadata : SessionMetadata
  turns : List (Nat × Turn) := []

def ProcessEnv.writeTurns (env : ProcessEnv) : List ThreadEffect :=
  env.turns.map fun e => .write (.turn e.1 e.2)

namespace Thread

variable (t : Thread)

/-- The thread has nothing left to run and nobody to run it for. -/
def exits : Bool := t.activeRequests.isEmpty && (t.subscribers = ∅ || t.shutdownRequested)

def andThen (effects : List ThreadEffect) : Thread := { t with effects := t.effects ++ effects }

/-- Send an event to the activity subscribers and to the thread's own. -/
def broadcast : Thread :=
  { t with
    effects := t.effects ++ [.broadcast t.broadcasts]
    broadcasts := t.broadcasts + 1 }

/-- A change of status goes to the summary subscribers as well. -/
def broadcastStatus (status : SessionStatus) : Thread :=
  { t with
    effects := t.effects ++
      [.broadcast t.broadcasts, .broadcastSessionStatus status t.broadcasts]
    broadcasts := t.broadcasts + 1 }

def ownRecord (env : ProcessEnv) : SessionRecord :=
  { env.record with parentSessionId := t.parentSessionId }

def ownMetadata (env : ProcessEnv) : SessionMetadata :=
  { env.metadata with parentSessionId := t.parentSessionId }

def handleAttach (client : ClientId) : Thread :=
  let t := { t with subscribers := insert client t.subscribers }
  t.andThen ([ThreadEffect.track client] ++
    t.activeRequests.map (ThreadEffect.sendStarted client) ++ [ThreadEffect.sendState client])

def handleDetach (client : ClientId) : Thread :=
  { t with subscribers := t.subscribers.erase client }.andThen [.untrack client]

def handleRemoveSubscriber (client : ClientId) : Thread :=
  { t with subscribers := t.subscribers.erase client }

/-- Take the next stream id. -/
def nextStream : Thread := { t with nextStreamId := (t.nextStreamId + 1) % 2 ^ 64 }

/-- Start a request and its worker. -/
def startRequest : Thread :=
  let t' := t.nextStream.broadcast
  { t' with
    activeRequests := t'.activeRequests ++ [t.nextStreamId]
    workers := t'.workers ++ [t.nextStreamId] }

def handleRunInput (env : ProcessEnv) : Thread :=
  if !env.runnable || t.shutdownRequested || !t.activeRequests.isEmpty then
    t.nextStream.broadcast
  else t.startRequest

/-- A child run that is refused is answered to its parent only. -/
def handleRunChildInput (env : ProcessEnv) : Thread :=
  if !env.runnable || t.shutdownRequested || !t.activeRequests.isEmpty then t.nextStream
  else t.startRequest

/-- Signal the cancel channel of one active request. -/
def cancelOne (streamId : Nat) : Thread :=
  if streamId ∈ t.activeRequests then
    { t with cancelled := t.cancelled ++ [streamId] }.broadcast
  else t

/-- Cancel one request, or with the stream id 0 all of them. -/
def handleCancel (streamId : Nat) : Thread :=
  (if streamId = 0 then t.activeRequests else [streamId]).foldl cancelOne t

def handleRequestFinished (streamId : Nat) (env : ProcessEnv) : Thread :=
  let t' := t.andThen (.write (.record (t.ownRecord env)) :: env.writeTurns)
  let t' := { t' with activeRequests := t'.activeRequests.erase streamId }
  (t'.andThen [.updateMetadata (t.ownMetadata env)]).broadcastStatus .inactive

def handleEdit (env : ProcessEnv) : Thread :=
  (t.andThen (.updateMetadata (t.ownMetadata env) :: .write (.record (t.ownRecord env)) ::
    env.writeTurns)).broadcast

def handleShutdown : Thread :=
  t.activeRequests.foldl cancelOne { t with shutdownRequested := true }

/-- Handle one command. The flag says that the thread leaves its loop. -/
def processCommand (env : ProcessEnv) : SessionCommand → Thread × Bool
  | .attach client => (t.handleAttach client, false)
  | .detach client => (t.handleDetach client, (t.handleDetach client).exits)
  | .removeSubscriber client =>
      (t.handleRemoveSubscriber client, (t.handleRemoveSubscriber client).exits)
  | .runInput => (t.handleRunInput env, false)
  | .runChildInput => (t.handleRunChildInput env, false)
  | .cancel streamId => (t.handleCancel streamId, false)
  | .requestFinished streamId =>
      (t.handleRequestFinished streamId env, (t.handleRequestFinished streamId env).exits)
  | .broadcast => (t.broadcast, false)
  | .statusChanged status => (t.broadcastStatus status, false)
  | .edit => (t.handleEdit env, false)
  | .shutdown => (t.handleShutdown, t.activeRequests.isEmpty)

/-- Take the next command. -/
def processNext (env : ProcessEnv) : Option Thread :=
  match t.phase, t.effects, t.queue with
  | .running, [], command :: rest =>
      let done := { t with queue := rest }.processCommand env command
      some (if done.2 then { done.1 with phase := .persisting (t.ownRecord env) } else done.1)
  | _, _, _ => none

/-- A fresh thread announces itself to the list first. -/
def spawn (sessionId : Nat) (record : SessionRecord) (metadata : SessionMetadata) : Thread where
  sessionId := sessionId
  parentSessionId := record.parentSessionId
  effects := [.updateMetadata { metadata with parentSessionId := record.parentSessionId }]

/-- The thread ends, and what is left in its queue is dropped. -/
def kill : Thread := { t with queue := [], effects := [], workers := [], phase := .finished }

/-- The thread has ended, and its channel is closed. -/
def finished : Bool :=
  match t.phase with
  | .finished => true
  | _ => false

end Thread

end Choreographr.Daemon
