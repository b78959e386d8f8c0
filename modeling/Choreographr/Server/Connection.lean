import Choreographr.Server.Wire

/-!
# Request handlers of a connection

A connection thread handles one request at a time. It answers it itself, with a
reply handle, after a round trip to the daemon's command loop where one is
needed; or it hands a reply target, or the sending end of a reply channel, to a
session thread and leaves the answer to it. An `Outcome` lists what a handler
does: what it enqueues as the reply, what it sends to session threads, whether it
now waits for one, and whether it gives the reply up.

What the command loop would answer to each command is an argument; without a
command loop there is no answer.
-/

namespace Choreographr.Server

open Session

/-! ## Obligations -/

/-- An owned obligation to answer one request from another thread. -/
structure ReplyTarget where
  client : Nat
  id : Nat
  kind : MessageKind
deriving DecidableEq

/-- The sending end of the channel that a blocked connection thread waits on. -/
structure Query where
  client : Nat
  id : Nat
  sessionId : Option Nat
deriving DecidableEq

/-- The commands of clients to a session thread. -/
inductive SessionCommand where
  | runInput (input : String) (reply : Option ReplyTarget)
  | setModel (model : String) (reply : Option ReplyTarget)
  | setAccount (name : String) (reply : Option ReplyTarget)
  | setReasoningEffort (effort : String) (reply : Option ReplyTarget)
  | undo (reply : Option ReplyTarget)
  | redo (reply : Option ReplyTarget)
  | getReasoningEffort (reply : Query)
  | getState (reply : Query)
  | attach (clientId : Nat)
  | detach (clientId : Nat)
deriving DecidableEq

namespace SessionCommand

def target? : SessionCommand → Option ReplyTarget
  | .runInput _ reply | .setModel _ reply | .setAccount _ reply | .setReasoningEffort _ reply
  | .undo reply | .redo reply => reply
  | _ => none

def query? : SessionCommand → Option Query
  | .getReasoningEffort reply | .getState reply => some reply
  | _ => none

end SessionCommand

/-- The index of a session thread's command channel. -/
abbrev ThreadId := Nat

/-! ## The command loop -/

inductive KeystoreOpError where
  | unbound
  | other (error : String)

/-- What the command loop answers to each command a connection sends it. -/
structure DaemonAnswers where
  createSession : Except String (Nat × ThreadId)
  attachSession : Except String ThreadId
  listSessions : List WireRecord
  /-- The session thread that a snapshot request is handed to. -/
  ensureActiveSession : Except String ThreadId
  accountExists : Bool
  unlock : Except KeystoreOpError Unit
  bindKeystore : Except KeystoreOpError Unit
  lock : Except String Unit
  saveCredential : Except String Unit
  removeCredential : Except String Unit
  getCredential : Option String
  aclAdd : Except String Nat
  listModels : Except String ModelList
  refreshModels : Except String RefreshReport
  mcpStatus : McpStatusReport
  mcpReconnect : Except String Unit
  mcpReload : Except String McpReloadOutcome
  mcpTrustSet : McpTrustOutcome
  mcpTrustList : List String
  deleteSession : Except String Unit
  setSessionFlags : Except String Unit
  addAccount : Except String Unit
  removeAccount : Except String Unit
  listAccounts : Except String (List WireRecord)

/-- What a handler reads. -/
structure ClientCtx where
  clientId : Nat
  requestId : Nat
  attachedSessionId : Option Nat
  attachedSessionTx : Option ThreadId
  isUnix : Bool
  /-- The answers of the command loop, unless it is gone. -/
  daemon : Option DaemonAnswers
  /-- The result of reading an attachment from the database. -/
  readAttachment : Except String (Option Bytes)
  oauthProviderDescriptors : List WireRecord

/-! ## Outcomes -/

structure Outcome where
  /-- Replies to the request, through its handle or its target. -/
  replies : List DaemonMessageType := []
  sends : List (ThreadId × SessionCommand) := []
  /-- The session to be attached from now on. -/
  attach : Option (Nat × ThreadId) := none
  /-- The thread waits for the answer to the query it sent. -/
  blocked : Bool := false
  /-- The handle was released without a reply. -/
  abandoned : Bool := false
  /-- The connection is closed. -/
  closes : Bool := false

namespace ClientCtx

def send (_ctx : ClientCtx) (inner : DaemonMessageType) : Outcome := { replies := [inner] }

def abandon (_ctx : ClientCtx) : Outcome := { abandoned := true }

def ack (ctx : ClientCtx) (kind : MessageKind) : Outcome := ctx.send (.accepted kind)

def replyTarget (ctx : ClientCtx) (kind : MessageKind) : ReplyTarget :=
  ⟨ctx.clientId, ctx.requestId, kind⟩

end ClientCtx

/-- What a target that is dropped unanswered says. -/
def dropBackstop (kind : MessageKind) : DaemonMessageType :=
  .failed kind "request was not answered by the daemon"

/-- A round trip to the command loop; `none` if its answer can no longer come. -/
def requestDaemon {R : Type} (ctx : ClientCtx) (answer : DaemonAnswers → R) : Option R :=
  ctx.daemon.map answer

/-- A round trip whose answer is a result. -/
def replyFromDaemon {T E : Type} (ctx : ClientCtx) (answer : DaemonAnswers → Except E T)
    (onOk : T → DaemonMessageType) (onErr : E → DaemonMessageType) : Outcome :=
  match requestDaemon ctx answer with
  | some (.ok value) => ctx.send (onOk value)
  | some (.error error) => ctx.send (onErr error)
  | none => ctx.abandon

/-- A round trip whose answer is always a value. -/
def replyWithValue {T : Type} (ctx : ClientCtx) (answer : DaemonAnswers → T)
    (message : T → DaemonMessageType) : Outcome :=
  match requestDaemon ctx answer with
  | some value => ctx.send (message value)
  | none => ctx.abandon

/-- The command loop answers through the target. A command that cannot be sent
drops it. -/
def replyThroughTarget {T : Type} (ctx : ClientCtx) (kind : MessageKind)
    (answer : DaemonAnswers → T) (message : T → DaemonMessageType) : Outcome :=
  match requestDaemon ctx answer with
  | some value => ctx.send (message value)
  | none => ctx.send (dropBackstop kind)

/-- Hand the obligation to the attached session thread. -/
def forwardToSession (ctx : ClientCtx) (kind : MessageKind)
    (command : Option ReplyTarget → SessionCommand) : Outcome :=
  match ctx.attachedSessionTx with
  | some tx => { sends := [(tx, command (some (ctx.replyTarget kind)))] }
  | none => ctx.send (.failed kind "no session attached")

/-! ## Handlers -/

def handleClientCreateSession (ctx : ClientCtx) (params : CreateSessionParams) : Outcome :=
  match requestDaemon ctx DaemonAnswers.createSession with
  | some (.ok (sid, _)) =>
      ctx.send (.session (some sid) (.sessionCreatedForRequester params))
  | some (.error e) => ctx.send (.session none (.sessionFailed "create_session" e))
  | none => { ctx.abandon with closes := true }

/-- Leave the attached session, unless it is the new one, and attach to the new. -/
def switchAttachedSession (ctx : ClientCtx) (sessionId : Nat) (tx : ThreadId) (o : Outcome) :
    Outcome :=
  let detach :=
    match ctx.attachedSessionTx with
    | some old =>
        if ctx.attachedSessionId ≠ some sessionId then [(old, .detach ctx.clientId)] else []
    | none => []
  { o with
    sends := o.sends ++ detach ++ [(tx, .attach ctx.clientId)]
    attach := some (sessionId, tx) }

def handleClientAttachSession (ctx : ClientCtx) (sessionId : Nat) : Outcome :=
  match requestDaemon ctx DaemonAnswers.attachSession with
  | some (.ok tx) =>
      switchAttachedSession ctx sessionId tx
        (ctx.send (.session (some sessionId) .sessionAttached))
  | some (.error e) => ctx.send (.session none (.sessionFailed "attach_session" e))
  | none => { ctx.abandon with closes := true }

/-- A gone command loop counts as an unknown account. -/
def handleClientSetSessionAccount (ctx : ClientCtx) (kind : MessageKind) (name : String) :
    Outcome :=
  match ctx.attachedSessionTx with
  | none => ctx.send (.session none (.sessionFailed "set_account" "no session attached"))
  | some tx =>
      match requestDaemon ctx DaemonAnswers.accountExists with
      | some true => { sends := [(tx, .setAccount name (some (ctx.replyTarget kind)))] }
      | _ =>
          ctx.send (.session ctx.attachedSessionId
            (.sessionFailed "set_account" ("account '" ++ name ++ "' not found")))

/-- Ask the attached session thread and wait for it. -/
def handleGetReasoningEffort (ctx : ClientCtx) : Outcome :=
  match ctx.attachedSessionTx with
  | some tx =>
      { sends :=
          [(tx, .getReasoningEffort ⟨ctx.clientId, ctx.requestId, ctx.attachedSessionId⟩)]
        blocked := true }
  | none => ctx.send (.session none (.live (.reasoningEffortSet "off")))

/-- The command loop hands the reply channel to the session's thread. -/
def handleGetSessionStateSync (ctx : ClientCtx) (sessionId : Nat) : Outcome :=
  match requestDaemon ctx DaemonAnswers.ensureActiveSession with
  | some (.ok tx) =>
      { sends := [(tx, .getState ⟨ctx.clientId, ctx.requestId, some sessionId⟩)]
        blocked := true }
  | some (.error e) => ctx.send (.failed .getSessionState e)
  | none => ctx.abandon

def keystoreUnboundError : String :=
  "keystore not initialized — no key is bound to this daemon yet; it will be bound " ++
    "automatically on next client connect"

def unlockErrorReply : KeystoreOpError → DaemonMessageType
  | .unbound => .keystoreUnbound keystoreUnboundError
  | .other e => .lockedError e

def keystoreReply (success : DaemonMessageType) : Except KeystoreOpError Unit → DaemonMessageType
  | .ok () => success
  | .error e => unlockErrorReply e

def handleUnlockSync (ctx : ClientCtx) (kind : MessageKind) : Outcome :=
  replyThroughTarget ctx kind DaemonAnswers.unlock (keystoreReply .unlocked)

def handleBindKeystoreSync (ctx : ClientCtx) (kind : MessageKind) : Outcome :=
  replyThroughTarget ctx kind DaemonAnswers.bindKeystore (keystoreReply .bound)

def handleLockSync (ctx : ClientCtx) : Outcome :=
  replyFromDaemon ctx DaemonAnswers.lock (fun _ => .locked) .lockedError

def handleAddCredentialSync (ctx : ClientCtx) (kind : MessageKind) (service : String) : Outcome :=
  replyThroughTarget ctx kind DaemonAnswers.saveCredential fun saved =>
    match saved with
    | .ok () => .credentialAdded service
    | .error e => .credentialAddFailed service e

def handleRemoveCredentialSync (ctx : ClientCtx) (service : String) : Outcome :=
  replyFromDaemon ctx DaemonAnswers.removeCredential (fun _ => .credentialRemoved service)
    (.credentialRemoveFailed service)

/-- Only a local connection may enrol a key. -/
def handleAclAddSync (ctx : ClientCtx) : Outcome :=
  if !ctx.isUnix then
    ctx.send (.aclAddResult false "ACL changes are only permitted from local connections")
  else
    replyFromDaemon ctx DaemonAnswers.aclAdd
      (fun count => .aclAddResult true
        ("client key authorized (" ++ count.repr ++ " client(s) now trusted)"))
      (.aclAddResult false)

def handleListModelsSync (ctx : ClientCtx) : Outcome :=
  replyFromDaemon ctx DaemonAnswers.listModels .models .modelsFailed

/-- Only attachments of the attached session are served; an unreadable one counts
as absent. -/
def handleClientGetImage (ctx : ClientCtx) (sessionId turnId : Nat) (key : ImageKey) : Outcome :=
  let data :=
    if ctx.attachedSessionId = some sessionId then
      match ctx.readAttachment with
      | .ok data => data
      | .error _ => none
    else none
  ctx.send (.image sessionId turnId key data)

def handleRefreshModelsSync (ctx : ClientCtx) : Outcome :=
  replyFromDaemon ctx DaemonAnswers.refreshModels .modelsRefreshed .modelsRefreshFailed

def handleMcpStatusSync (ctx : ClientCtx) : Outcome :=
  replyWithValue ctx DaemonAnswers.mcpStatus .mcpStatus

/-- A reconnect that succeeds is answered with a status, by a second round trip. -/
def handleMcpReconnectSync (ctx : ClientCtx) (slug : String) : Outcome :=
  match requestDaemon ctx DaemonAnswers.mcpReconnect with
  | some (.ok ()) => handleMcpStatusSync ctx
  | some (.error e) => ctx.send (.mcpReconnectFailed slug e)
  | none => ctx.abandon

def handleMcpReloadSync (ctx : ClientCtx) : Outcome :=
  replyFromDaemon ctx DaemonAnswers.mcpReload .mcpReloaded .mcpReloadFailed

/-- Trust the project of the attached session, or revoke it. -/
def handleMcpTrustSync (ctx : ClientCtx) : Outcome :=
  match ctx.attachedSessionId with
  | none => ctx.send (.mcpTrustUpdated ⟨none, false, "no session attached"⟩)
  | some _ => replyWithValue ctx DaemonAnswers.mcpTrustSet .mcpTrustUpdated

def handleMcpTrustListSync (ctx : ClientCtx) : Outcome :=
  replyWithValue ctx DaemonAnswers.mcpTrustList .mcpTrustList

def handleGetCredentialSync (ctx : ClientCtx) (service : String) : Outcome :=
  replyWithValue ctx DaemonAnswers.getCredential (.credential service)

def handleDeleteSessionSync (ctx : ClientCtx) (sessionId : Nat) : Outcome :=
  replyFromDaemon ctx DaemonAnswers.deleteSession (fun _ => .accepted .deleteSession)
    fun e => .session (some sessionId) (.sessionDeleteFailed e)

def operationForKind : MessageKind → String
  | .setSessionPinned => "set_session_pinned"
  | .setSessionArchived => "set_session_archived"
  | _ => "session mutation"

def handleSetSessionFlagsSync (ctx : ClientCtx) (kind : MessageKind) (sessionId : Nat) :
    Outcome :=
  replyFromDaemon ctx DaemonAnswers.setSessionFlags (fun _ => .accepted kind)
    fun e => .session (some sessionId) (.sessionFailed (operationForKind kind) e)

/-! ## Dispatch -/

def dispatchClientMessage (ctx : ClientCtx) (msg : ClientMessageType) : Outcome :=
  match msg with
  | .createSession params _ => handleClientCreateSession ctx params
  | .attachSession sessionId => handleClientAttachSession ctx sessionId
  | .listSessions => replyWithValue ctx DaemonAnswers.listSessions .sessions
  | .subscribeSessionsSummary | .unsubscribeSessionsSummary => ctx.ack msg.kind
  | .runInput input => forwardToSession ctx msg.kind (.runInput input)
  | .cancel _ => ctx.ack msg.kind
  | .undo => forwardToSession ctx msg.kind .undo
  | .redo => forwardToSession ctx msg.kind .redo
  | .continueGeneration => forwardToSession ctx msg.kind (.runInput "Continue.")
  | .ping => ctx.send .pong
  | .setModel model => forwardToSession ctx msg.kind (.setModel model)
  | .setReasoningEffort effort => forwardToSession ctx msg.kind (.setReasoningEffort effort)
  | .getReasoningEffort => handleGetReasoningEffort ctx
  | .unlock _ => handleUnlockSync ctx msg.kind
  | .bindKeystore _ => handleBindKeystoreSync ctx msg.kind
  | .lock => handleLockSync ctx
  | .addCredential service _ => handleAddCredentialSync ctx msg.kind service
  | .removeCredential service => handleRemoveCredentialSync ctx service
  | .aclAdd _ => handleAclAddSync ctx
  | .listModels => handleListModelsSync ctx
  | .getImage sessionId turnId key => handleClientGetImage ctx sessionId turnId key
  | .refreshModels _ => handleRefreshModelsSync ctx
  | .mcpStatusRequest => handleMcpStatusSync ctx
  | .mcpReconnect slug => handleMcpReconnectSync ctx slug
  | .mcpReload => handleMcpReloadSync ctx
  | .mcpTrust | .mcpUntrust => handleMcpTrustSync ctx
  | .mcpTrustList => handleMcpTrustListSync ctx
  | .deleteSession sessionId => handleDeleteSessionSync ctx sessionId
  | .setSessionPinned sessionId _ | .setSessionArchived sessionId _ =>
      handleSetSessionFlagsSync ctx msg.kind sessionId
  | .getCredential service => handleGetCredentialSync ctx service
  | .getSessionState sessionId => handleGetSessionStateSync ctx sessionId
  | .addAccount name _ _ =>
      replyFromDaemon ctx DaemonAnswers.addAccount (fun _ => .accountAdded name)
        (.accountAddFailed name)
  | .removeAccount name =>
      replyFromDaemon ctx DaemonAnswers.removeAccount (fun _ => .accountRemoved name)
        (.accountRemoveFailed name)
  | .listAccounts => replyFromDaemon ctx DaemonAnswers.listAccounts .accounts .accountListFailed
  | .listOAuthProviders => ctx.send (.oauthProviders ctx.oauthProviderDescriptors)
  | .setSessionAccount name => handleClientSetSessionAccount ctx msg.kind name
  | .subscribeAllActivity | .unsubscribeAllActivity => ctx.ack msg.kind
  | .unknown kind => ctx.send (.failed kind "unsupported request")

end Choreographr.Server
