import Choreographr.Session.Handlers

/-!
# A session and its request worker

The system is one session thread, the worker of its active run if there is
one, the worker's messages that the session thread has not taken yet, the
database, and the provider. An action is one atomic move of one party: the
session thread handles a command or takes the oldest worker message, the
worker makes a step, or the idle session is put to sleep and loaded again.
All interleavings of these moves are runs of `system`.
-/

namespace Choreographr.Session

open Lib

structure System where
  main : SessionState
  db : Db
  server : Server
  worker : Option Worker
  inbox : List WorkerMessage
  shutdownRequested : Bool
deriving DecidableEq

inductive Action where
  /-- The session thread handles a command at the given time. -/
  | command (now : Int) (c : Command)
  /-- The session thread takes the oldest message of its worker. -/
  | deliver (now : Int)
  | worker (e : WorkerEvent)
  /-- The idle session thread exits and the session is loaded again. -/
  | reload (providerSlug : Option String)

namespace System

/-- A session that has just been created: one stored record, no turns and no
response to continue. -/
def init (env : Env) (config : SessionConfig) (providerSlug : Option String) : System :=
  let fresh :=
    { SessionState.empty with
      config := { config with lastResponseId := none, lastResponseIdProducer := none } }
  let db := Db.empty.writeSession env.sessionId fresh.toRecord
  { main := SessionState.load env fresh.toRecord providerSlug OrdMap.empty
    db
    server := ⟨[]⟩
    worker := none
    inbox := []
    shutdownRequested := false }

def applyEffect (s : System) (e : Effect) : System := { s with main := e.state, db := e.db }

/-- Put a message into the cancel channel of each named run that still has a
worker. -/
def signalCancel (s : System) (targets : List Nat) : System :=
  { s with worker := s.worker.map fun w =>
      { w with cancels := w.cancels + targets.count w.streamId } }

/-- Handle one command on the session thread. -/
def command (env : Env) (now : Int) (s : System) (c : Command) : System × List Output :=
  let plain (e : Effect) := (s.applyEffect e, e.outputs)
  let run (r : Effect × Option Worker) :=
    ({ s.applyEffect r.1 with
        worker :=
          match r.2 with
          | some w => some w
          | none => s.worker },
      r.1.outputs)
  match c with
  | .runInput text account =>
      run (handleRunInput env s.shutdownRequested s.main s.db text account)
  | .runChildInput userText account =>
      run (handleRunChildInput s.shutdownRequested s.main s.db userText account)
  | .cancel streamId =>
      let targets := cancelTargets s.main streamId
      (s.signalCancel targets, cancelOutputs targets)
  | .setModel model validation => plain (handleSetModel env now s.main s.db model validation)
  | .setTitle title => plain (handleSetTitle env now s.main s.db title)
  | .setWorkingDir path => plain (handleSetWorkingDir env now s.main s.db path)
  | .loadTools groups known => plain (handleLoadTools env now s.main s.db groups known)
  | .unloadTools groups known => plain (handleUnloadTools env now s.main s.db groups known)
  | .setAccount name account => plain (handleSetAccount env now s.main s.db name account)
  | .dropProvider => ({ s with main := { s.main with provider := none } }, [])
  | .setProviderSlug slug => ({ s with main := { s.main with providerSlug := slug } }, [])
  | .setReasoningEffort effort => plain (handleSetReasoningEffort env s.main s.db effort)
  | .attach => (s, attachOutputs env s.main)
  | .undo => plain (handleUndo env s.main s.db)
  | .redo => plain (handleRedo env s.main s.db)
  | .shutdown =>
      let targets := s.main.activeRequests.keys
      ({ s.signalCancel targets with shutdownRequested := true }, cancelOutputs targets)

/-- Take the oldest worker message. -/
def deliver (env : Env) (now : Int) (s : System) : Option (System × List Output) :=
  match s.inbox with
  | [] => none
  | m :: rest =>
      let e := handleWorkerMessage env now s.main s.db m
      some ({ s.applyEffect e with inbox := rest }, e.outputs)

/-- One step of the worker. -/
def workerStep (env : Env) (s : System) (e : WorkerEvent) : Option (System × List Output) :=
  match s.worker with
  | none => none
  | some w =>
      match w.step env s.db s.server e with
      | none => none
      | some r =>
          some
            ({ s with worker := r.worker, db := r.db, server := r.server,
                      inbox := s.inbox ++ r.sent },
              r.trace)

/-- Store the record, leave, and start again from the database. -/
def reload (env : Env) (s : System) (providerSlug : Option String) :
    Option (System × List Output) :=
  if s.main.activeRequests.entries ≠ [] then none
  else
    let db := s.db.writeSession env.sessionId s.main.toRecord
    match db.sessions.get? env.sessionId with
    | none => none
    | some record =>
        let main := SessionState.load env record providerSlug
          (OrdMap.empty.insertAll (db.readTurns env.sessionId))
        some
          ({ s with main, db, shutdownRequested := false }, [.updateMetadata main.toMetadata])

def step (env : Env) (s : System) : Action → Option (System × List Output)
  | .command now c => some (s.command env now c)
  | .deliver now => s.deliver env now
  | .worker e => s.workerStep env e
  | .reload providerSlug => s.reload env providerSlug

/-- The session thread has no active request. -/
def Idle (s : System) : Prop := s.main.activeRequests.entries = []

instance (s : System) : Decidable s.Idle := inferInstanceAs (Decidable (_ = _))

end System

/-- The transition system of one session. -/
def system (env : Env) : Machine System Action Output := ⟨fun s a => s.step env a⟩

end Choreographr.Session
