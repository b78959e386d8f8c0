import Mathlib.Logic.Function.Basic
import Choreographr.Lib.Machine
import Choreographr.Server.Connection

/-!
# Connections, session threads and the command loop

The server is the connections, the session threads with their command queues, and
the command loop. An action is one atomic move: a connection thread handles a
request, a session thread takes the oldest command of its queue or ends, the
command loop starts a session thread, tells every client that it shuts down, or
ends. All interleavings are runs of `server`.

A session thread runs the session of `Session.System`. It may end between any two
commands; the commands left in its queue are dropped with it. The command loop
ends only after its shutdown notice has gone to every client, and the writer that
sends the notice closes the connection.

The events of a step are the requests received and the messages enqueued, and
each request that a connection thread gives up.
-/

namespace Choreographr.Server

open Session Lib

structure Conn where
  attachedSessionId : Option Nat := none
  attachedSessionTx : Option ThreadId := none
  isUnix : Bool
  up : Bool := true
  /-- The thread waits for a session thread. -/
  blocked : Bool := false

/-- The connection after a request. -/
def Conn.after (conn : Conn) (o : Outcome) : Conn :=
  { conn with
    attachedSessionId :=
      match o.attach with
      | some (sessionId, _) => some sessionId
      | none => conn.attachedSessionId
    attachedSessionTx :=
      match o.attach with
      | some (_, tx) => some tx
      | none => conn.attachedSessionTx
    blocked := o.blocked
    up := !o.closes }

structure Thread where
  env : Env
  system : System
  queue : List SessionCommand := []
  alive : Bool := true

structure Daemon where
  commandLoop : Bool := true
  shuttingDown : Bool := false
  conns : Nat → Conn
  threads : List Thread := []

inductive Event where
  | received (client id : Nat)
  | message (client : Nat) (m : DaemonMessage)
  | abandoned (client id : Nat)

/-- What the environment answers during one request. -/
structure RequestEnv where
  daemon : DaemonAnswers
  readAttachment : Except String (Option Bytes)
  oauthProviderDescriptors : List WireRecord

/-- What the command loop answers to a session thread during one command. -/
structure CommandEnv where
  now : Int
  account : Option ResolvedAccount
  validation : Option String

inductive Action where
  | request (client id : Nat) (msg : ClientMessageType) (env : RequestEnv)
  /-- The session thread takes the oldest command. -/
  | process (thread : ThreadId) (env : CommandEnv)
  /-- A move of the session that no client's request makes. -/
  | session (thread : ThreadId) (a : Session.Action)
  | threadExit (thread : ThreadId)
  | spawn (env : Env) (system : System)
  | push (client : Nat) (inner : DaemonMessageType)
  | disconnect (client : Nat)
  | broadcastShuttingDown
  | commandLoopExit

namespace Daemon

def init (isUnix : Nat → Bool) : Daemon where
  conns c := { isUnix := isUnix c }

def setConn (s : Daemon) (client : Nat) (conn : Conn) : Daemon :=
  { s with conns := Function.update s.conns client conn }

def modifyThread (s : Daemon) (thread : ThreadId) (f : Thread → Thread) : Daemon :=
  { s with threads := s.threads.modify thread f }

def unblock (s : Daemon) (client : Nat) : Daemon :=
  s.setConn client { s.conns client with blocked := false }

def isAlive (s : Daemon) (thread : ThreadId) : Bool :=
  (s.threads[thread]?).any Thread.alive

def reply (target : ReplyTarget) (inner : DaemonMessageType) : Event :=
  .message target.client ⟨some target.id, inner⟩

/-! ## Commands -/

/-- A command that no thread will take. Its target answers, if it has one; a
connection thread that waits for it finds its channel closed and abandons the
request. -/
def dropCommand (s : Daemon) (c : SessionCommand) : Daemon × List Event :=
  match c.query? with
  | some q => (s.unblock q.client, [.abandoned q.client q.id])
  | none => (s, c.target?.toList.map fun t => reply t (dropBackstop t.kind))

def sendCommand (s : Daemon) (m : ThreadId × SessionCommand) : Daemon × List Event :=
  if s.isAlive m.1 then
    (s.modifyThread m.1 fun t => { t with queue := t.queue ++ [m.2] }, [])
  else s.dropCommand m.2

/-- Run a list of effects in order. -/
def andThen {α : Type} (f : Daemon → α → Daemon × List Event) :
    Daemon → List α → Daemon × List Event
  | s, [] => (s, [])
  | s, a :: rest =>
      let first := f s a
      let later := andThen f first.1 rest
      (later.1, first.2 ++ later.2)

/-! ## Requests -/

/-- The context of a request. -/
def clientCtx (s : Daemon) (client id : Nat) (env : RequestEnv) : ClientCtx where
  clientId := client
  requestId := id
  attachedSessionId := (s.conns client).attachedSessionId
  attachedSessionTx := (s.conns client).attachedSessionTx
  isUnix := (s.conns client).isUnix
  daemon := if s.commandLoop then some env.daemon else none
  readAttachment := env.readAttachment
  oauthProviderDescriptors := env.oauthProviderDescriptors

/-- One request on a connection that is up and whose thread is free. -/
def handleRequest (s : Daemon) (client id : Nat) (msg : ClientMessageType) (env : RequestEnv) :
    Option (Daemon × List Event) :=
  let conn := s.conns client
  if !conn.up || conn.blocked then none
  else
    let o := dispatchClientMessage (s.clientCtx client id env) msg
    let sent := andThen sendCommand (s.setConn client (conn.after o)) o.sends
    some (sent.1,
      Event.received client id ::
        o.replies.map (fun inner => Event.message client ⟨some id, inner⟩) ++
        (if o.abandoned then [Event.abandoned client id] else []) ++ sent.2)

/-! ## Session threads -/

/-- The reply of a session thread as its requester sees it. -/
def targetMessage (sessionId : Nat) (kind : MessageKind) : Session.Reply → DaemonMessageType
  | .accepted => .accepted kind
  | .failed error => .failed kind error
  | .started streamId turnId => .session (some sessionId) (.live (.started streamId turnId 0))

def replyOf : Output → Option Session.Reply
  | .reply r => some r
  | _ => none

/-- What a target is told: the replies among the outputs of its command or, if
there are none, that it was dropped. -/
def targetEvents (sessionId : Nat) (target : Option ReplyTarget) (outputs : List Output) :
    List Event :=
  match target with
  | none => []
  | some t =>
      let replies := outputs.filterMap replyOf
      if replies.isEmpty then [reply t (dropBackstop t.kind)]
      else replies.map fun r => reply t (targetMessage sessionId t.kind r)

/-- The session's own command; a detach changes no state of the session. -/
def sessionCommand (env : CommandEnv) : SessionCommand → Option Session.Command
  | .runInput input _ => some (.runInput input env.account)
  | .setModel model _ => some (.setModel model env.validation)
  | .setAccount name _ => some (.setAccount name env.account)
  | .setReasoningEffort effort _ => some (.setReasoningEffort effort)
  | .undo _ => some .undo
  | .redo _ => some .redo
  | .attach _ => some .attach
  | .getReasoningEffort _ | .getState _ | .detach _ => none

/-- The answer to a query of a blocked connection thread. -/
def queryMessage (t : Thread) : SessionCommand → Option (Query × DaemonMessageType)
  | .getReasoningEffort q =>
      some (q, .session q.sessionId
        (.live (.reasoningEffortSet (t.system.main.config.reasoningEffort.getD "off"))))
  | .getState q =>
      some (q, .session (some t.env.sessionId)
        (.live (t.system.main.sessionStateMessage t.env)))
  | _ => none

/-- The session thread handles one command. -/
def processCommand (s : Daemon) (thread : ThreadId) (t : Thread) (env : CommandEnv)
    (c : SessionCommand) : Daemon × List Event :=
  match queryMessage t c with
  | some (q, inner) =>
      (s.unblock q.client, [.message q.client ⟨some q.id, inner⟩])
  | none =>
      match sessionCommand env c with
      | none => (s, [])
      | some command =>
          let done := t.system.command t.env env.now command
          (s.modifyThread thread fun t => { t with system := done.1 },
            targetEvents t.env.sessionId c.target? done.2)

def process (s : Daemon) (thread : ThreadId) (env : CommandEnv) : Option (Daemon × List Event) :=
  match s.threads[thread]? with
  | none => none
  | some t =>
      match t.queue with
      | [] => none
      | c :: rest =>
          some ((s.modifyThread thread fun t => { t with queue := rest }).processCommand
            thread t env c)

/-- The session moves on its own. Nobody waits for what it says. A session that is
loaded again gets a new thread. -/
def sessionStep (s : Daemon) (thread : ThreadId) (a : Session.Action) :
    Option (Daemon × List Event) :=
  match s.threads[thread]?, a with
  | none, _ | _, .reload _ => none
  | some t, a =>
      match t.system.step t.env a with
      | none => none
      | some (system, _) => some (s.modifyThread thread fun t => { t with system := system }, [])

def threadExit (s : Daemon) (thread : ThreadId) : Option (Daemon × List Event) :=
  match s.threads[thread]? with
  | none => none
  | some t =>
      some (andThen dropCommand
        (s.modifyThread thread fun t => { t with queue := [], alive := false }) t.queue)

/-! ## Steps -/

def step (s : Daemon) : Action → Option (Daemon × List Event)
  | .request client id msg env => s.handleRequest client id msg env
  | .process thread env => s.process thread env
  | .session thread a => s.sessionStep thread a
  | .threadExit thread => s.threadExit thread
  | .spawn env system => some ({ s with threads := s.threads ++ [{ env, system }] }, [])
  | .push client inner => some (s, [.message client ⟨none, inner⟩])
  | .disconnect client =>
      let conn := s.conns client
      some (andThen sendCommand (s.setConn client { conn with up := false })
        (conn.attachedSessionTx.toList.map fun tx => (tx, .detach client)))
  | .broadcastShuttingDown =>
      some ({ s with
        shuttingDown := true
        conns := fun c => { s.conns c with up := false } }, [])
  | .commandLoopExit => if s.shuttingDown then some ({ s with commandLoop := false }, []) else none

end Daemon

/-- The transition system of the daemon and its clients. -/
def server : Machine Daemon Action Event := ⟨Daemon.step⟩

end Choreographr.Server
