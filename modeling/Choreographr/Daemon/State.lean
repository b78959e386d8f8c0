import Mathlib.Logic.Function.Basic
import Choreographr.Lib.Machine
import Choreographr.Session.Store

/-!
# The daemon's threads and what they share

The daemon is a command loop, a thread for each open session with the workers of
its requests, threads that finish the deletion of a session, and a thread for each
connection. They share the database and send each other commands through unbounded
first-in-first-out channels. This module has the commands, the state of each
thread, and the database with its deletion tombstones.
-/

namespace Choreographr.Daemon

open Session Lib

abbrev ClientId := Nat

/-- The index of a session thread's command channel. No two threads share one. -/
abbrev ThreadId := Nat

/-- One broadcast of a session thread: the thread and its running number. -/
structure Tag where
  thread : ThreadId
  number : Nat
deriving DecidableEq

/-! ## The database -/

/-- A write that a session thread or its request worker makes: always to a row of
its own session. -/
inductive RowWrite where
  | record (record : SessionRecord)
  | turn (turnId : Nat) (turn : Turn)
  | attachment (turnId : Nat) (slot : String) (data : Bytes)

/-- The session tables and the table of deletion tombstones. -/
structure Disk where
  db : Db
  tombstones : OrdMap Nat Unit

namespace Disk

def empty : Disk := ⟨Db.empty, OrdMap.empty⟩

def write (d : Disk) (sessionId : Nat) : RowWrite → Disk
  | .record r => { d with db := d.db.writeSession sessionId r }
  | .turn turnId t => { d with db := d.db.writeTurn sessionId turnId t }
  | .attachment turnId slot data =>
      { d with db := d.db.writeAttachment sessionId turnId slot data }

/-- Delete a session's record and the turns and attachments in its range. -/
def deleteSession (d : Disk) (sessionId : Nat) : Disk :=
  let stop := saturatingSucc 64 sessionId
  { d with
    db :=
      { sessions := d.db.sessions.erase sessionId
        turns := d.db.turns.filter fun k _ =>
          !decide (turnKey sessionId 0 ≤ k ∧ k < turnKey stop 0)
        attachments := d.db.attachments.filter fun k _ =>
          !decide (attachmentKey sessionId 0 "" ≤ k ∧ k < attachmentKey stop 0 "") } }

def markSessionDeleted (d : Disk) (sessionId : Nat) : Disk :=
  { d with tombstones := d.tombstones.insert sessionId () }

def clearSessionTombstone (d : Disk) (sessionId : Nat) : Disk :=
  { d with tombstones := d.tombstones.erase sessionId }

/-- Delete every session with a tombstone, and the tombstones. -/
def purgeTombstonedSessions (d : Disk) : Disk :=
  d.tombstones.keys.foldl (fun d id => (d.deleteSession id).clearSessionTombstone id) d

def hasTombstone (d : Disk) (sessionId : Nat) : Prop :=
  d.tombstones.get? sessionId = some ()

/-- The database has no record, no turn and no attachment of the session. -/
structure NoRows (d : Disk) (sessionId : Nat) : Prop where
  record : d.db.sessions.get? sessionId = none
  turns : ∀ turnId, d.db.turns.get? (turnKey sessionId turnId) = none
  attachments : ∀ turnId slot, d.db.attachments.get? (attachmentKey sessionId turnId slot) = none

end Disk

/-- The list entry of a stored session. -/
def metadataOfRecord (r : SessionRecord) : SessionMetadata where
  title := r.title
  selectedModel := r.selectedModel
  reasoningEffort := r.reasoningEffort
  parentSessionId := r.parentSessionId
  workingDir := r.workingDir
  createdAt := r.createdAt
  lastModified := r.lastModified
  turnCount := r.turnCount
  status := .sleeping
  activeToolGroups := r.activeToolGroups
  accountName := r.accountName
  accumulatedUsage := {}
  contextWindow := none
  lastPromptTokens := none
  pinned := r.pinned
  archivedAt := r.archivedAt

/-! ## Commands -/

/-- The commands of a session thread that decide who is subscribed to it, what it
runs and how long it lives. `edit` is any command that changes its record or turns
(a title, a model, an account, undo and the like). -/
inductive SessionCommand where
  | attach (client : ClientId)
  | detach (client : ClientId)
  | removeSubscriber (client : ClientId)
  | runInput
  | runChildInput
  | cancel (streamId : Nat)
  | requestFinished (streamId : Nat)
  | broadcast
  | statusChanged (status : SessionStatus)
  | edit
  | shutdown
deriving DecidableEq

structure CreateSessionParams where
  title : Option String := none
  parentSessionId : Option Nat := none
  workingDir : Option String := none
  reasoningEffort : Option String := none
  selectedModel : Option String := none
  contextConfig : Option ContextConfig := none
  accountName : Option String := none
  activeToolGroups : Finset String := ∅

inductive DaemonCommand where
  /-- From a connection, or from a tool of a running session. -/
  | createSession (client : Option ClientId) (params : CreateSessionParams)
  | attachSession (client : ClientId) (sessionId : Nat)
  | deleteSession (client : ClientId) (sessionId : Nat)
  | setSessionFlags (client : ClientId) (sessionId : Nat) (pinned archived : Option Bool)
  | updateMetadata (sessionId : Nat) (metadata : SessionMetadata)
  | sessionExited (sessionId : Nat)
  | sessionDeleteFinalized (sessionId : Nat)
  | cancelRequest (sessionId streamId : Nat)
  | registerClientWriter (client : ClientId)
  | registerSummarySubscriber (client : ClientId)
  | unregisterSummarySubscriber (client : ClientId)
  | registerActivitySubscriber (client : ClientId)
  | unregisterActivitySubscriber (client : ClientId)
  | trackSessionSubscription (client : ClientId) (sessionId : Nat)
  | untrackSessionSubscription (client : ClientId) (sessionId : Nat)
  | broadcastActivity (sessionId : Nat) (tag : Tag)
  | broadcastSessionStatus (sessionId : Nat) (status : SessionStatus) (tag : Tag)
  | evictClient (client : ClientId)
  | clientDisconnected (client : ClientId)

/-- The commands that a connection thread sends. The others are notices of session
threads and of the loop's own threads. -/
def DaemonCommand.fromClient : DaemonCommand → Bool
  | .updateMetadata _ _ | .sessionExited _ | .sessionDeleteFinalized _
  | .trackSessionSubscription _ _ | .untrackSessionSubscription _ _
  | .broadcastActivity _ _ | .broadcastSessionStatus _ _ _ | .evictClient _ => false
  | _ => true

/-- What is enqueued for a client. -/
inductive ClientMessage where
  | sessionAttached (sessionId : Nat)
  | sessionFailed (operation : String)
  | sessionCreatedForRequester (sessionId : Nat)
  | deleted (sessionId : Nat)
  | flagsFailed (sessionId : Nat)
  /-- The snapshot that an attach is answered with. -/
  | sessionState (sessionId : Nat)
  /-- The replayed start of a request in flight. -/
  | started (sessionId streamId : Nat)
  /-- A copy of a broadcast of a session thread. -/
  | event (tag : Tag)
  | sessionCreated (sessionId : Nat)
  | sessionStatusChanged (sessionId : Nat) (status : SessionStatus)
  | sessionFlagsChanged (sessionId : Nat)
  | sessionDeleted (sessionId : Nat)
  | evicted
deriving DecidableEq

/-! ## Session threads -/

/-- One thing a session thread does between two commands. -/
inductive ThreadEffect where
  | write (row : RowWrite)
  | updateMetadata (metadata : SessionMetadata)
  | track (client : ClientId)
  | untrack (client : ClientId)
  | sendStarted (client : ClientId) (streamId : Nat)
  | sendState (client : ClientId)
  /-- Forward a broadcast to the command loop, then to each subscriber. -/
  | broadcast (number : Nat)
  | broadcastSessionStatus (status : SessionStatus) (number : Nat)

/-- How far a session thread has come. After its loop it writes its record, reports
its exit to the command loop and ends; then its channel is closed. -/
inductive ThreadPhase where
  | running
  | persisting (record : SessionRecord)
  | reporting
  | ending
  | finished

structure Thread where
  sessionId : Nat
  parentSessionId : Option Nat
  queue : List SessionCommand := []
  subscribers : Finset ClientId := ∅
  activeRequests : List Nat := []
  /-- The requests whose cancel channel has been signalled. -/
  cancelled : List Nat := []
  /-- The requests whose worker is running. -/
  workers : List Nat := []
  nextStreamId : Nat := 1
  shutdownRequested : Bool := false
  /-- How many broadcasts the thread has made. -/
  broadcasts : Nat := 0
  /-- What it does before it takes the next command. -/
  effects : List ThreadEffect := []
  phase : ThreadPhase := .running

/-! ## The command loop -/

structure ClientState where
  wantsSummary : Bool := false
  wantsActivity : Bool := false
  /-- The sessions the client is a direct subscriber of. -/
  sessions : Finset Nat := ∅
deriving DecidableEq

structure DaemonState where
  nextSessionId : Nat := 1
  activeSessions : OrdMap Nat ThreadId := OrdMap.empty
  sessionMetadata : OrdMap Nat SessionMetadata := OrdMap.empty
  /-- Deleted sessions whose thread may still be shutting down. -/
  deletedSessions : Finset Nat := ∅
  children : OrdMap Nat (List Nat) := OrdMap.empty
  clients : OrdMap ClientId ClientState := OrdMap.empty
  /-- The commands not yet taken. -/
  inbox : List DaemonCommand := []

/-! ## Deletion and connection threads -/

/-- How far the thread that finishes a deletion has come. -/
inductive FinalizePhase where
  | deleting
  | clearing
  | reporting
deriving DecidableEq

structure Finalizer where
  sessionId : Nat
  phase : FinalizePhase := .deleting
deriving DecidableEq

/-- One thing a connection thread does between two requests. To a session thread it
sends commands of its own client. -/
inductive ConnEffect where
  | daemon (command : DaemonCommand) (h : command.fromClient = true := by rfl)
  | attach (sessionId : Nat) (thread : ThreadId)
  | detach (thread : ThreadId)
  | runInput (thread : ThreadId)
  | edit (thread : ThreadId)
  | reply (message : ClientMessage)

structure Conn where
  /-- The client has been accepted, and its connection is not torn down. -/
  up : Bool := false
  /-- A client id is given to one connection only. -/
  used : Bool := false
  /-- Its writer thread has ended. -/
  writerGone : Bool := false
  evicted : Bool := false
  attachedSession : Option (Nat × ThreadId) := none
  /-- The thread waits for an answer of the command loop. -/
  waiting : Bool := false
  effects : List ConnEffect := []

end Choreographr.Daemon
