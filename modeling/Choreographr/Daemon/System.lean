import Choreographr.Daemon.CommandLoop

/-!
# The daemon as a whole

The command loop handles one command at a time. Session threads, request workers,
connection threads and the threads that finish a deletion take one step at a time,
in any order; all interleavings are runs of `daemon`.

A crash ends every thread and opens the daemon again on what the database holds. It
may come while the loop is in the middle of a deletion (`crashDuring`).
-/

namespace Choreographr.Daemon

open Session Lib

/-- What a request worker does. -/
inductive WorkerMove where
  | writeTurn (turnId : Nat) (turn : Turn)
  | writeAttachment (turnId : Nat) (slot : String) (data : Bytes)
  | broadcast
  | statusChanged (status : SessionStatus)
  /-- A tool creates a session below its own. -/
  | createSession (params : CreateSessionParams)
  | finish

/-- The requests of a client that concern sessions and subscriptions. -/
inductive Request where
  | createSession (params : CreateSessionParams)
  | attachSession (sessionId : Nat)
  | deleteSession (sessionId : Nat)
  | setSessionFlags (sessionId : Nat) (pinned archived : Option Bool)
  | subscribeSessionsSummary
  | unsubscribeSessionsSummary
  | subscribeAllActivity
  | unsubscribeAllActivity
  | runInput
  | edit
  | cancel (streamId : Nat)

/-- What the connection thread does with a request, and whether it then waits for
the command loop. -/
def Request.effects (client : ClientId) (attached : Option (Nat × ThreadId)) :
    Request → List ConnEffect × Bool
  | .createSession params => ([.daemon (.createSession (some client) params)], true)
  | .attachSession sessionId => ([.daemon (.attachSession client sessionId)], true)
  | .deleteSession sessionId => ([.daemon (.deleteSession client sessionId)], true)
  | .setSessionFlags sessionId pinned archived =>
      ([.daemon (.setSessionFlags client sessionId pinned archived)], true)
  | .subscribeSessionsSummary => ([.daemon (.registerSummarySubscriber client)], false)
  | .unsubscribeSessionsSummary => ([.daemon (.unregisterSummarySubscriber client)], false)
  | .subscribeAllActivity => ([.daemon (.registerActivitySubscriber client)], false)
  | .unsubscribeAllActivity => ([.daemon (.unregisterActivitySubscriber client)], false)
  | .runInput => (attached.toList.map fun a => .runInput a.2, false)
  | .edit => (attached.toList.map fun a => .edit a.2, false)
  | .cancel streamId => (attached.toList.map fun a => .daemon (.cancelRequest a.1 streamId), false)

inductive Action where
  | connect (client : ClientId)
  | request (client : ClientId) (request : Request)
  /-- A connection thread does the next thing on its list. -/
  | conn (client : ClientId)
  | disconnect (client : ClientId)
  /-- The writer thread of a connection ends. -/
  | writerExit (client : ClientId)
  | loop (env : LoopEnv)
  /-- A session thread takes the next command. -/
  | process (thread : ThreadId) (env : ProcessEnv)
  /-- A session thread does the next thing on its list. -/
  | thread (thread : ThreadId)
  | worker (thread : ThreadId) (streamId : Nat) (move : WorkerMove)
  /-- The tool that created a session gives it its input. -/
  | runChild (thread : ThreadId)
  | finalize (index : Nat)
  /-- A session thread finds a client too far behind. -/
  | overLag (client : ClientId)
  | crash
  | crashDuring (n : Nat)

namespace System

variable (s : System)

/-! ## Session threads -/

/-- One effect of the session thread `t`. -/
def performEffect (thread : ThreadId) (t : Thread) : ThreadEffect → System
  | .write row => { s with disk := s.disk.write t.sessionId row }
  | .updateMetadata metadata => s.sendDaemon (.updateMetadata t.sessionId metadata)
  | .track client => s.sendDaemon (.trackSessionSubscription client t.sessionId)
  | .untrack client => s.sendDaemon (.untrackSessionSubscription client t.sessionId)
  | .sendStarted client streamId => s.send client (.started t.sessionId streamId)
  | .sendState client => s.send client (.sessionState t.sessionId)
  | .broadcast number =>
      let tag : Tag := ⟨thread, number⟩
      let s := s.sendDaemon (.broadcastActivity t.sessionId tag)
      let reached := t.subscribers.filter fun c => !(s.conns c).writerGone
      let s := s.emit (.fanOut tag t.subscribers :: reached.sort.map fun c => .sent c (.event tag))
      -- a subscriber whose writer is gone is forgotten
      s.modifyThread thread fun t => { t with subscribers := reached }
  | .broadcastSessionStatus status number =>
      s.sendDaemon (.broadcastSessionStatus t.sessionId status ⟨thread, number⟩)

/-- The end of a session thread: its last write, its exit notice, its channel. -/
def exitStep (thread : ThreadId) (t : Thread) : Option System :=
  match t.phase with
  | .persisting record =>
      some ({ s with disk := s.disk.write t.sessionId (.record record) }.modifyThread thread
        fun t => { t with phase := .reporting })
  | .reporting =>
      some ((s.sendDaemon (.sessionExited t.sessionId)).modifyThread thread
        fun t => { t with phase := .ending })
  | .ending => some (s.modifyThread thread Thread.kill)
  | .running | .finished => none

/-- A session thread does the next thing on its list or, after its loop, takes the
next step towards its end. -/
def threadStep (thread : ThreadId) : Option System :=
  match s.threads[thread]? with
  | none => none
  | some t =>
      match t.effects with
      | effect :: rest =>
          some ((s.modifyThread thread fun t => { t with effects := rest }).performEffect
            thread t effect)
      | [] => s.exitStep thread t

def processStep (thread : ThreadId) (env : ProcessEnv) : Option System :=
  match s.threads[thread]? with
  | none => none
  | some t => (t.processNext env).map fun t' => s.modifyThread thread fun _ => t'

/-- A move of the worker of a request. -/
def performMove (thread : ThreadId) (t : Thread) (streamId : Nat) : WorkerMove → System
  | .writeTurn turnId turn => { s with disk := s.disk.write t.sessionId (.turn turnId turn) }
  | .writeAttachment turnId slot data =>
      { s with disk := s.disk.write t.sessionId (.attachment turnId slot data) }
  | .broadcast => s.sendSession thread .broadcast
  | .statusChanged status => s.sendSession thread (.statusChanged status)
  | .createSession params =>
      s.sendDaemon (.createSession none { params with parentSessionId := some t.sessionId })
  | .finish =>
      (s.modifyThread thread fun t =>
        { t with workers := t.workers.erase streamId }).sendSession thread
          (.requestFinished streamId)

def workerStep (thread : ThreadId) (streamId : Nat) (move : WorkerMove) : Option System :=
  match s.threads[thread]? with
  | none => none
  | some t => if streamId ∈ t.workers then some (s.performMove thread t streamId move) else none

/-! ## Deletion threads -/

/-- The thread that finishes a deletion takes its next step. -/
def finalizeStep (index : Nat) : Option System :=
  match s.finalizers[index]? with
  | none => none
  | some f =>
      match f.phase with
      | .deleting =>
          some { s with
            disk := s.disk.deleteSession f.sessionId
            finalizers := s.finalizers.set index { f with phase := .clearing } }
      | .clearing =>
          some { s with
            disk := s.disk.clearSessionTombstone f.sessionId
            finalizers := s.finalizers.set index { f with phase := .reporting } }
      | .reporting =>
          some ({ s with finalizers := s.finalizers.eraseIdx index }.sendDaemon
            (.sessionDeleteFinalized f.sessionId))

/-! ## Connections -/

/-- The connection thread can read a request. -/
def ready (client : ClientId) : Bool :=
  (s.conns client).up && !(s.conns client).waiting && (s.conns client).effects.isEmpty

def requestStep (client : ClientId) (request : Request) : Option System :=
  if s.ready client then
    let todo := request.effects client (s.conns client).attachedSession
    some (s.setConn client { s.conns client with effects := todo.1, waiting := todo.2 })
  else none

def performConnEffect (client : ClientId) : ConnEffect → System
  | .daemon command _ => s.sendDaemon command
  | .attach _ thread => s.sendSession thread (.attach client)
  | .detach thread => s.sendSession thread (.detach client)
  | .runInput thread => s.sendSession thread .runInput
  | .edit thread => s.sendSession thread .edit
  | .reply message => s.send client message

def connStep (client : ClientId) : Option System :=
  match (s.conns client).effects with
  | [] => none
  | effect :: rest =>
      some ((s.setConn client { s.conns client with effects := rest }).performConnEffect
        client effect)

/-- A client is accepted under a fresh id; its writer is registered first. -/
def connectStep (client : ClientId) : Option System :=
  if (s.conns client).used then none
  else some ((s.setConn client { up := true, used := true }).sendDaemon
    (.registerClientWriter client))

/-- A connection is torn down: it leaves its session and the command loop. -/
def disconnectStep (client : ClientId) : Option System :=
  if s.ready client then
    let detach := (s.conns client).attachedSession.toList.map fun a => ConnEffect.detach a.2
    some (s.setConn client
      { s.conns client with
        up := false
        effects := detach ++ [.daemon (.clientDisconnected client)] })
  else none

/-! ## Crash and restart -/

/-- The loop's state when the daemon is opened on a database. -/
def openState (d : Disk) : DaemonState :=
  let sessionMetadata := OrdMap.empty.insertAll
    (d.db.sessions.entries.map fun e => (e.1, metadataOfRecord e.2))
  { nextSessionId := sessionMetadata.lastKey?.elim 1 (· + 1)
    sessionMetadata := sessionMetadata }

def killConn (conn : Conn) : Conn :=
  { conn with up := false, writerGone := true, waiting := false, effects := [] }

/-- Every thread ends, and the daemon is opened again. -/
def crash : System :=
  let disk := s.disk.purgeTombstonedSessions
  { s with
    loop := openState disk
    threads := s.threads.map Thread.kill
    finalizers := []
    conns := fun c => killConn (s.conns c)
    disk := disk }

/-- The daemon crashes while the loop handles a deletion, with `n` sessions of its
cascade done. -/
def crashDuring (n : Nat) : Option System :=
  match s.loop.inbox with
  | .deleteSession _ sessionId :: _ =>
      let done : System := ((s.deleteTargets sessionId).take n).foldl deleteAndForget
        (s.forgetChildren sessionId)
      some done.crash
  | _ => none

/-! ## Steps -/

def next : Action → Option System
  | .connect client => s.connectStep client
  | .request client request => s.requestStep client request
  | .conn client => s.connStep client
  | .disconnect client => s.disconnectStep client
  | .writerExit client => some (s.setConn client { s.conns client with writerGone := true })
  | .loop env => s.loopStep env
  | .process thread env => s.processStep thread env
  | .thread thread => s.threadStep thread
  | .worker thread streamId move => s.workerStep thread streamId move
  | .runChild thread => some (s.sendSession thread .runChildInput)
  | .finalize index => s.finalizeStep index
  | .overLag client => some (s.sendDaemon (.evictClient client))
  | .crash => some s.crash
  | .crashDuring n => s.crashDuring n

def step (a : Action) : Option (System × List Event) :=
  ({ s with events := [] }.next a).map fun s => (s, s.events)

end System

/-- The transition system of the daemon. -/
def daemon : Machine System Action Event := ⟨System.step⟩

/-- The daemon opened for the first time. -/
def System.init : System := {}

end Choreographr.Daemon
