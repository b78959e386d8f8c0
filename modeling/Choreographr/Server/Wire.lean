import Choreographr.Session.System

/-!
# Requests and replies

A client sends a `ClientMessage`: a request id and a request. The daemon answers
with `DaemonMessage`s. A message with an id is the reply to that request; one
without is a broadcast. Records that a connection only passes on (session
summaries, account and server descriptions) are kept as their wire bytes.
-/

namespace Choreographr.Server

open Session

/-- A record that is passed on unread. -/
abbrev WireRecord := Bytes

/-- The tag of a request, repeated in generic replies. -/
inductive MessageKind where
  | createSession
  | listSessions
  | subscribeSessionsSummary
  | unsubscribeSessionsSummary
  | attachSession
  | getSessionState
  | runInput
  | cancel
  | ping
  | getCredential
  | listModels
  | refreshModels
  | setModel
  | unlock
  | lock
  | bindKeystore
  | addCredential
  | removeCredential
  | aclAdd
  | deleteSession
  | setSessionPinned
  | setSessionArchived
  | addAccount
  | removeAccount
  | listAccounts
  | listOAuthProviders
  | setSessionAccount
  | setReasoningEffort
  | getReasoningEffort
  | undo
  | redo
  | continueGeneration
  | getImage
  | mcpStatusRequest
  | mcpReconnect
  | mcpReload
  | mcpTrust
  | mcpUntrust
  | mcpTrustList
  | subscribeAllActivity
  | unsubscribeAllActivity
deriving DecidableEq

inductive ImageKey where
  | displayed (index : Nat)
  | toolResult (callId : String)
deriving DecidableEq

/-- What a client asks for a new session to have. -/
structure CreateSessionParams where
  title : Option String := none
  parentSessionId : Option Nat := none
  workingDir : Option String := none
  accountName : Option String := none
  selectedModel : Option String := none
  reasoningEffort : Option String := none
deriving DecidableEq

structure AccountOverrides where
  baseUrl : Option String := none
  streaming : Option Bool := none
  retryMaxAttempts : Option Nat := none
  connectTimeoutSecs : Option Nat := none
  requestTimeoutSecs : Option Nat := none
  totalTimeoutSecs : Option Nat := none
deriving DecidableEq

/-- The requests. The input of a run is its text, decoded. -/
inductive ClientMessageType where
  | createSession (params : CreateSessionParams) (contextConfig : Option ContextConfig)
  | listSessions
  | subscribeSessionsSummary
  | unsubscribeSessionsSummary
  | attachSession (sessionId : Nat)
  | getSessionState (sessionId : Nat)
  | runInput (input : String)
  | cancel (streamId : Nat)
  | ping
  | getCredential (service : String)
  | listModels
  | refreshModels (force : Bool)
  | setModel (model : String)
  | unlock (privateKey : Bytes)
  | lock
  | bindKeystore (key : Bytes)
  | addCredential (service : String) (credential : WireRecord)
  | removeCredential (service : String)
  | aclAdd (pubkey : String)
  | deleteSession (sessionId : Nat)
  | setSessionPinned (sessionId : Nat) (pinned : Bool)
  | setSessionArchived (sessionId : Nat) (archived : Bool)
  | addAccount (name provider : String) (overrides : AccountOverrides)
  | removeAccount (name : String)
  | listAccounts
  | listOAuthProviders
  | setSessionAccount (name : String)
  | setReasoningEffort (effort : String)
  | getReasoningEffort
  | undo
  | redo
  | continueGeneration
  | getImage (sessionId turnId : Nat) (key : ImageKey)
  | mcpStatusRequest
  | mcpReconnect (slug : String)
  | mcpReload
  | mcpTrust
  | mcpUntrust
  | mcpTrustList
  | subscribeAllActivity
  | unsubscribeAllActivity
  /-- A request of a newer client that this build does not know. -/
  | unknown (kind : MessageKind)

def ClientMessageType.kind : ClientMessageType → MessageKind
  | .createSession _ _ => .createSession
  | .listSessions => .listSessions
  | .subscribeSessionsSummary => .subscribeSessionsSummary
  | .unsubscribeSessionsSummary => .unsubscribeSessionsSummary
  | .attachSession _ => .attachSession
  | .getSessionState _ => .getSessionState
  | .runInput _ => .runInput
  | .cancel _ => .cancel
  | .ping => .ping
  | .getCredential _ => .getCredential
  | .listModels => .listModels
  | .refreshModels _ => .refreshModels
  | .setModel _ => .setModel
  | .unlock _ => .unlock
  | .lock => .lock
  | .bindKeystore _ => .bindKeystore
  | .addCredential _ _ => .addCredential
  | .removeCredential _ => .removeCredential
  | .aclAdd _ => .aclAdd
  | .deleteSession _ => .deleteSession
  | .setSessionPinned _ _ => .setSessionPinned
  | .setSessionArchived _ _ => .setSessionArchived
  | .addAccount _ _ _ => .addAccount
  | .removeAccount _ => .removeAccount
  | .listAccounts => .listAccounts
  | .listOAuthProviders => .listOAuthProviders
  | .setSessionAccount _ => .setSessionAccount
  | .setReasoningEffort _ => .setReasoningEffort
  | .getReasoningEffort => .getReasoningEffort
  | .undo => .undo
  | .redo => .redo
  | .continueGeneration => .continueGeneration
  | .getImage _ _ _ => .getImage
  | .mcpStatusRequest => .mcpStatusRequest
  | .mcpReconnect _ => .mcpReconnect
  | .mcpReload => .mcpReload
  | .mcpTrust => .mcpTrust
  | .mcpUntrust => .mcpUntrust
  | .mcpTrustList => .mcpTrustList
  | .subscribeAllActivity => .subscribeAllActivity
  | .unsubscribeAllActivity => .unsubscribeAllActivity
  | .unknown kind => kind

/-- Session-scoped payloads. -/
inductive SessionEvent where
  | sessionCreatedForRequester (params : CreateSessionParams)
  | sessionAttached
  | sessionFailed (operation error : String)
  | sessionDeleteFailed (error : String)
  /-- An event of the session itself. -/
  | live (event : Session.SessionEvent)

structure ModelList where
  models : List String
  selectedModel : Option String
  provisional : Bool

structure RefreshReport where
  providers : Nat
  models : Nat
  status : WireRecord

structure McpStatusReport where
  servers : List WireRecord
  projectRoot : Option String
  projectTrusted : Bool
  ignoredProjectServers : List String

structure McpReloadOutcome where
  summary : String
  servers : List WireRecord

structure McpTrustOutcome where
  root : Option String
  trusted : Bool
  message : String

inductive DaemonMessageType where
  | session (sessionId : Option Nat) (event : SessionEvent)
  | sessions (sessions : List WireRecord)
  | pong
  | models (list : ModelList)
  | modelsFailed (error : String)
  | unlocked
  | locked
  | lockedError (error : String)
  | bound
  | keystoreUnbound (error : String)
  | credentialAdded (service : String)
  | credentialAddFailed (service error : String)
  | credentialRemoved (service : String)
  | credentialRemoveFailed (service error : String)
  | aclAddResult (ok : Bool) (message : String)
  | credential (service : String) (key : Option String)
  | accountAdded (name : String)
  | accountAddFailed (name error : String)
  | accountRemoved (name : String)
  | accountRemoveFailed (name error : String)
  | accounts (accounts : List WireRecord)
  | oauthProviders (providers : List WireRecord)
  | accountListFailed (error : String)
  | modelsRefreshed (report : RefreshReport)
  | modelsRefreshFailed (error : String)
  | image (sessionId turnId : Nat) (key : ImageKey) (data : Option Bytes)
  | mcpStatus (report : McpStatusReport)
  | mcpReconnectFailed (slug error : String)
  | mcpReloaded (outcome : McpReloadOutcome)
  | mcpReloadFailed (error : String)
  | mcpTrustUpdated (outcome : McpTrustOutcome)
  | mcpTrustList (roots : List String)
  | shuttingDown
  | accepted (kind : MessageKind)
  | failed (kind : MessageKind) (error : String)

/-- A message to a client; with an id it is the reply to that request. -/
structure DaemonMessage where
  id : Option Nat
  inner : DaemonMessageType

end Choreographr.Server
