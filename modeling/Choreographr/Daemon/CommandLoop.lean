import Choreographr.Daemon.SessionThread

/-!
# The command loop

The handlers of the command loop are functions on the whole system: they change the
loop's own state and the database, push commands into the queues of session
threads, and emit what is enqueued for clients. Every write of the database
succeeds. The loop refuses to create a session where its 64-bit counter would
overflow.
-/

namespace Choreographr.Daemon

open Session Lib

inductive Event where
  /-- Enqueued for a client. -/
  | sent (client : ClientId) (message : ClientMessage)
  | created (sessionId : Nat)
  /-- A deletion was answered with success. -/
  | deleteAcked (sessionId : Nat)
  /-- A broadcast is fanned out; these clients are entitled to it on this path. -/
  | fanOut (tag : Tag) (entitled : Finset ClientId)
deriving DecidableEq

structure System where
  loop : DaemonState := {}
  threads : List Thread := []
  finalizers : List Finalizer := []
  conns : ClientId → Conn := fun _ => {}
  disk : Disk := Disk.empty
  /-- What the last step has sent. -/
  events : List Event := []

/-- What is decided elsewhere while the loop handles one command. -/
structure LoopEnv where
  now : Int
  /-- The context window that the catalog has for a new session. -/
  contextWindow : Option Nat := none
  /-- The list entry that a spawned session thread announces. -/
  metadata : SessionMetadata
  /-- The clients that the fan-outs of the handler find too far behind. -/
  overLag : List ClientId := []

namespace System

variable (s : System)

def emit (events : List Event) : System := { s with events := s.events ++ events }

/-- Enqueue a message for a client whose writer is there. -/
def send (client : ClientId) (message : ClientMessage) : System :=
  if (s.conns client).writerGone then s else s.emit [.sent client message]

def modifyThread (thread : ThreadId) (f : Thread → Thread) : System :=
  { s with threads := s.threads.modify thread f }

/-- Send a command to a session thread; a closed channel drops it. -/
def sendSession (thread : ThreadId) (command : SessionCommand) : System :=
  s.modifyThread thread fun t =>
    if t.finished then t else { t with queue := t.queue ++ [command] }

def sendDaemon (command : DaemonCommand) : System :=
  { s with loop := { s.loop with inbox := s.loop.inbox ++ [command] } }

def setConn (client : ClientId) (conn : Conn) : System :=
  { s with conns := Function.update s.conns client conn }

/-- The loop answers a connection thread, which goes on with `effects`. -/
def resume (client : ClientId) (effects : List ConnEffect) : System :=
  s.setConn client { s.conns client with waiting := false, effects := effects }

/-- The session threads that the loop knows, by session. -/
def sendActive (sessionId : Nat) (command : SessionCommand) : System :=
  match s.loop.activeSessions.get? sessionId with
  | some thread => s.sendSession thread command
  | none => s

/-! ## Clients -/

/-- Deliver to the clients that are not skipped. A client whose writer is gone is
forgotten. -/
def fanOutClients (skip : ClientState → Bool) (message : ClientMessage) : System :=
  let reached := s.loop.clients.entries.filter fun (e : ClientId × ClientState) =>
    !skip e.2 && !(s.conns e.1).writerGone
  let s : System :=
    { s with
      loop :=
        { s.loop with
          clients := s.loop.clients.filter fun c st => skip st || !(s.conns c).writerGone } }
  s.emit (reached.map fun e => Event.sent e.1 message)

/-- A change of the session list: to the activity subscribers, then to the summary
subscribers that are not among them. -/
def broadcast (message : ClientMessage) : System :=
  (s.fanOutClients (fun st => !st.wantsActivity) message).fanOutClients
    (fun st => !st.wantsSummary || st.wantsActivity) message

/-- Forget a client, and have its sessions forget it. -/
def removeClient (client : ClientId) : System :=
  match s.loop.clients.get? client with
  | none => s
  | some st =>
      (s.loop.activeSessions.entries.filter fun e => e.1 ∈ st.sessions).foldl
        (fun s e => s.sendSession e.2 (.removeSubscriber client))
        { s with loop := { s.loop with clients := s.loop.clients.erase client } }

def handleEvictClient (client : ClientId) : System :=
  match s.loop.clients.get? client with
  | none => s
  | some _ =>
      let s := s.send client .evicted
      (s.setConn client { s.conns client with evicted := true }).removeClient client

def modifyClient (client : ClientId) (f : ClientState → ClientState) : System :=
  { s with loop := { s.loop with clients := s.loop.clients.modify client f } }

/-- A subscription creates the entry of its client if there is none. -/
def subscribeClient (client : ClientId) (f : ClientState → ClientState) : System :=
  { s with
    loop :=
      { s.loop with
        clients := s.loop.clients.insert client (f ((s.loop.clients.get? client).getD {})) } }

def handleRegisterClientWriter (client : ClientId) : System := s.subscribeClient client id

def handleTrackSessionSubscription (client : ClientId) (sessionId : Nat) : System :=
  s.modifyClient client fun st => { st with sessions := insert sessionId st.sessions }

def handleUntrackSessionSubscription (client : ClientId) (sessionId : Nat) : System :=
  s.modifyClient client fun st => { st with sessions := st.sessions.erase sessionId }

/-- The clients of an entry that `p` selects. -/
def clientsWith (p : ClientState → Bool) : Finset ClientId :=
  ((s.loop.clients.entries.filter fun e => p e.2).map Prod.fst).toFinset

/-- A broadcast of a session thread goes to the activity subscribers, except to the
direct subscribers of the session. -/
def handleBroadcastActivity (sessionId : Nat) (tag : Tag) : System :=
  (s.emit [.fanOut tag (s.clientsWith ClientState.wantsActivity)]).fanOutClients
    (fun st => !st.wantsActivity || sessionId ∈ st.sessions) (.event tag)

/-- A change of status goes on to the summary subscribers that did not get it on
another path. A session that is not listed has none. -/
def handleBroadcastSessionStatus (sessionId : Nat) (status : SessionStatus) (tag : Tag) :
    System :=
  match s.loop.sessionMetadata.get? sessionId with
  | none => s
  | some _ =>
      let s :=
        { s with
          loop :=
            { s.loop with
              sessionMetadata := s.loop.sessionMetadata.modify sessionId
                fun m => { m with status := status } } }
      (s.emit [.fanOut tag (s.clientsWith ClientState.wantsSummary)]).fanOutClients
        (fun st => !st.wantsSummary || sessionId ∈ st.sessions || st.wantsActivity) (.event tag)

/-! ## Sessions -/

/-- Start a session thread. -/
def spawnSession (env : LoopEnv) (sessionId : Nat) (record : SessionRecord)
    (metadata : SessionMetadata) : System :=
  { s with
    loop :=
      { s.loop with
        activeSessions := s.loop.activeSessions.insert sessionId s.threads.length
        sessionMetadata := s.loop.sessionMetadata.insert sessionId metadata }
    threads := s.threads ++ [Thread.spawn sessionId record env.metadata] }

/-- The record of a new session. -/
def createdRecord (params : CreateSessionParams) (now : Int) : SessionRecord where
  title := params.title
  selectedModel := params.selectedModel
  reasoningEffort := params.reasoningEffort
  parentSessionId := params.parentSessionId
  workingDir := params.workingDir
  turnCount := 0
  createdAt := now
  lastModified := now
  activeToolGroups :=
    if params.activeToolGroups = ∅ then {"core", "git", "shell"} else params.activeToolGroups
  contextConfig := params.contextConfig.getD {}
  accountName := params.accountName
  lastResponseId := none
  lastResponseIdProducer := none
  pinned := false
  archivedAt := none

/-- Record a new session with its parent. -/
def trackChild (parent : Option Nat) (sessionId : Nat) : System :=
  match parent with
  | none => s
  | some parentId =>
      let siblings := (s.loop.children.get? parentId).getD []
      { s with
        loop :=
          { s.loop with
            children := s.loop.children.insert parentId (siblings ++ [sessionId]) } }

def handleCreateSession (env : LoopEnv) (client : Option ClientId)
    (params : CreateSessionParams) : System :=
  let sessionId := s.loop.nextSessionId
  let record := createdRecord params env.now
  let metadata :=
    { metadataOfRecord record with status := .inactive, contextWindow := env.contextWindow }
  let s :=
    { s with
      loop := { s.loop with nextSessionId := sessionId + 1 }
      disk := s.disk.write sessionId (.record record) }
  let s := (s.spawnSession env sessionId record metadata).trackChild params.parentSessionId sessionId
  let s :=
    match client with
    | some c => s.resume c [.reply (.sessionCreatedForRequester sessionId)]
    | none => s
  ((s.emit [.created sessionId]).broadcast (.sessionCreated sessionId)).broadcast
    (.sessionStatusChanged sessionId .inactive)

/-- The thread of a session that is not deleted: the one there is, or a new one for
a session that is stored. -/
def ensureActiveSession (env : LoopEnv) (sessionId : Nat) : Option (System × ThreadId) :=
  if sessionId ∈ s.loop.deletedSessions then none
  else
    match s.loop.activeSessions.get? sessionId with
    | some thread => some (s, thread)
    | none =>
        match s.disk.db.sessions.get? sessionId with
        | none => none
        | some record =>
            let metadata := { metadataOfRecord record with status := .inactive }
            some (s.spawnSession env sessionId record metadata, s.threads.length)

/-- The old session is left unless it is the same. -/
def leaveSession (conn : Conn) (sessionId : Nat) : List ConnEffect :=
  match conn.attachedSession with
  | some (oldId, oldThread) => if sessionId = oldId then [] else [.detach oldThread]
  | none => []

/-- Switch a connection to a session, after its client is told. -/
def switchAttachedSession (client : ClientId) (sessionId : Nat) (thread : ThreadId) : System :=
  let conn := s.conns client
  s.setConn client
    { conn with
      waiting := false
      attachedSession := some (sessionId, thread)
      effects := .reply (.sessionAttached sessionId) ::
        (leaveSession conn sessionId ++ [.attach sessionId thread]) }

def handleAttachSession (env : LoopEnv) (client : ClientId) (sessionId : Nat) : System :=
  match s.ensureActiveSession env sessionId with
  | some (s, thread) => s.switchAttachedSession client sessionId thread
  | none => s.resume client [.reply (.sessionFailed "attach_session")]

def handleSetSessionFlags (env : LoopEnv) (client : ClientId) (sessionId : Nat)
    (pinned archived : Option Bool) : System :=
  if sessionId ∈ s.loop.deletedSessions then s.resume client [.reply (.flagsFailed sessionId)]
  else
    match s.loop.sessionMetadata.get? sessionId with
    | none => s.resume client [.reply (.flagsFailed sessionId)]
    | some existing =>
        let pinned := pinned.getD existing.pinned
        let archivedAt :=
          match archived with
          | some true => some env.now
          | some false => none
          | none => existing.archivedAt
        let s :=
          { s with
            disk :=
              { s.disk with db := s.disk.db.updateSessionFlags sessionId pinned archivedAt }
            loop :=
              { s.loop with
                sessionMetadata := s.loop.sessionMetadata.modify sessionId
                  fun m => { m with pinned := pinned, archivedAt := archivedAt } } }
        (s.broadcast (.sessionFlagsChanged sessionId)).resume client []

/-- The list entry after an update from the session thread. -/
def mergeMetadata (existing metadata : SessionMetadata) : SessionMetadata :=
  { metadata with
    lastModified := max metadata.lastModified existing.lastModified
    status := if existing.status = .sleeping then .sleeping else metadata.status
    pinned := existing.pinned
    archivedAt := existing.archivedAt }

def handleUpdateMetadata (sessionId : Nat) (metadata : SessionMetadata) : System :=
  if sessionId ∈ s.loop.deletedSessions then s
  else
    let metadata :=
      match s.loop.sessionMetadata.get? sessionId with
      | some existing => mergeMetadata existing metadata
      | none => metadata
    { s with
      loop :=
        { s.loop with sessionMetadata := s.loop.sessionMetadata.insert sessionId metadata } }

def removeChildFromAllParents (childId : Nat) : System :=
  { s with
    loop :=
      { s.loop with
        children := (s.loop.children.mapVal fun _ v => v.filter (· ≠ childId)).filter
          fun _ v => !v.isEmpty } }

def cancelAndShutdownChild (childId : Nat) : System :=
  (s.sendActive childId (.cancel 0)).sendActive childId .shutdown

/-- The children that the loop has recorded for a session. -/
def childrenOf (sessionId : Nat) : List Nat := (s.loop.children.get? sessionId).getD []

def forgetChildren (sessionId : Nat) : System :=
  { s with loop := { s.loop with children := s.loop.children.erase sessionId } }

/-- A listed session whose thread has exited is asleep. -/
def markSleeping (sessionId : Nat) : System :=
  match s.loop.sessionMetadata.get? sessionId with
  | none => s
  | some _ =>
      { s with
        loop :=
          { s.loop with
            sessionMetadata := s.loop.sessionMetadata.modify sessionId
              fun m => { m with status := .sleeping } } }.broadcast
        (.sessionStatusChanged sessionId .sleeping)

def handleSessionExited (sessionId : Nat) : System :=
  let children := s.childrenOf sessionId
  let s :=
    { s with loop := { s.loop with activeSessions := s.loop.activeSessions.erase sessionId } }
  let s : System := children.foldl
    (fun s child => (s.removeChildFromAllParents child).cancelAndShutdownChild child)
    (s.forgetChildren sessionId)
  let s := s.markSleeping sessionId
  if sessionId ∈ s.loop.deletedSessions then
    { s with finalizers := s.finalizers ++ [{ sessionId := sessionId }] }
  else s

def handleSessionDeleteFinalized (sessionId : Nat) : System :=
  { s with loop := { s.loop with deletedSessions := s.loop.deletedSessions.erase sessionId } }

/-- Cancel the active children of a session. -/
def cancelChildrenOf (parentId : Nat) : System :=
  if (s.loop.activeSessions.get? parentId).isNone &&
      (s.loop.sessionMetadata.get? parentId).isNone then s
  else (s.childrenOf parentId).foldl (fun s child => s.sendActive child (.cancel 0)) s

def handleCancelRequest (sessionId streamId : Nat) : System :=
  (s.sendActive sessionId (.cancel streamId)).cancelChildrenOf sessionId

/-! ## Deletion -/

/-- Take a session out of the list, and tell the subscribers. -/
def unlistSession (sessionId : Nat) : System :=
  { s with
    loop :=
      { s.loop with sessionMetadata := s.loop.sessionMetadata.erase sessionId } }.broadcast
    (.sessionDeleted sessionId)

/-- Whether a session thread has ended. -/
def isFinished (thread : ThreadId) : Bool := (s.threads[thread]?).all Thread.finished

/-- Delete one session. If its thread is alive it is told to end, and the rows are
deleted when it has; a tombstone stands for that in the database. -/
def deleteSessionInner (sessionId : Nat) : System :=
  match s.loop.activeSessions.get? sessionId with
  | some thread =>
      let s :=
        { s with
          loop :=
            { s.loop with
              activeSessions := s.loop.activeSessions.erase sessionId
              deletedSessions := insert sessionId s.loop.deletedSessions } }
      if s.isFinished thread then
        { s with
          disk := (s.disk.deleteSession sessionId).clearSessionTombstone sessionId }.unlistSession
          sessionId
      else
        (({ s with disk := s.disk.markSessionDeleted sessionId }.sendSession thread
          (.cancel 0)).sendSession thread .shutdown).unlistSession sessionId
  | none =>
      let disk := s.disk.deleteSession sessionId
      { s with
        disk :=
          if sessionId ∈ s.loop.deletedSessions then disk
          else disk.clearSessionTombstone sessionId }.unlistSession sessionId

/-- Delete one session and take it from its parents' children. -/
def deleteAndForget (sessionId : Nat) : System :=
  (s.removeChildFromAllParents sessionId).deleteSessionInner sessionId

/-- The sessions that a deletion reaches, in its order. -/
def deleteTargets (sessionId : Nat) : List Nat := s.childrenOf sessionId ++ [sessionId]

def handleDeleteSession (client : ClientId) (sessionId : Nat) : System :=
  let deleted := (s.deleteTargets sessionId).foldl deleteAndForget (s.forgetChildren sessionId)
  (deleted.emit [.deleteAcked sessionId]).resume client [.reply (.deleted sessionId)]

/-! ## The loop -/

def handleCommand (env : LoopEnv) : DaemonCommand → System
  | .createSession client params => s.handleCreateSession env client params
  | .attachSession client sessionId => s.handleAttachSession env client sessionId
  | .deleteSession client sessionId => s.handleDeleteSession client sessionId
  | .setSessionFlags client sessionId pinned archived =>
      s.handleSetSessionFlags env client sessionId pinned archived
  | .updateMetadata sessionId metadata => s.handleUpdateMetadata sessionId metadata
  | .sessionExited sessionId => s.handleSessionExited sessionId
  | .sessionDeleteFinalized sessionId => s.handleSessionDeleteFinalized sessionId
  | .cancelRequest sessionId streamId => s.handleCancelRequest sessionId streamId
  | .registerClientWriter client => s.handleRegisterClientWriter client
  | .registerSummarySubscriber client =>
      s.subscribeClient client fun st => { st with wantsSummary := true }
  | .unregisterSummarySubscriber client =>
      s.modifyClient client fun st => { st with wantsSummary := false }
  | .registerActivitySubscriber client =>
      s.subscribeClient client fun st => { st with wantsActivity := true }
  | .unregisterActivitySubscriber client =>
      s.modifyClient client fun st => { st with wantsActivity := false }
  | .trackSessionSubscription client sessionId =>
      s.handleTrackSessionSubscription client sessionId
  | .untrackSessionSubscription client sessionId =>
      s.handleUntrackSessionSubscription client sessionId
  | .broadcastActivity sessionId tag => s.handleBroadcastActivity sessionId tag
  | .broadcastSessionStatus sessionId status tag =>
      s.handleBroadcastSessionStatus sessionId status tag
  | .evictClient client => s.handleEvictClient client
  | .clientDisconnected client => s.removeClient client

/-- The id counter has room for another session. -/
def hasRoom (command : DaemonCommand) : Bool :=
  match command with
  | .createSession _ _ => s.loop.nextSessionId + 1 < 2 ^ 64
  | _ => true

/-- The loop takes the oldest command. -/
def loopStep (env : LoopEnv) : Option System :=
  match s.loop.inbox with
  | [] => none
  | command :: rest =>
      if s.hasRoom command then
        let s := { s with loop := { s.loop with inbox := rest } }
        some (env.overLag.foldl handleEvictClient (s.handleCommand env command))
      else none

end System

end Choreographr.Daemon
