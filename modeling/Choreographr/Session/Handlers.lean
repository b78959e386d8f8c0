import Choreographr.Session.AgentLoop

/-!
# Command handlers

The session thread processes one command at a time. A handler here maps the
session state and the database to their next values and the list of what is
said on the way, in order: the reply to the requester, broadcasts to
subscribers, metadata for the daemon's index.

What the daemon answers during a handler (whether a model is valid, what an
account resolves to, which tool groups exist) and the clock are arguments.
-/

namespace Choreographr.Session

open Lib

/-- The daemon's answer when a session asks for an account: the provider slug,
and the client's configuration or the reason why no client can be built. -/
structure ResolvedAccount where
  slug : String
  client : Except String (List (String × Nat) × Option Nat)

/-- Commands of clients, tools and the daemon. -/
inductive Command where
  | runInput (text : String) (account : Option ResolvedAccount)
  | runChildInput (userText : Option String) (account : Option ResolvedAccount)
  | cancel (streamId : Nat)
  | setModel (model : String) (validation : Option String)
  | setTitle (title : String)
  | setWorkingDir (path : String)
  | loadTools (groups : List String) (known : Finset String)
  | unloadTools (groups : List String) (known : Finset String)
  | setAccount (name : String) (account : Option ResolvedAccount)
  | dropProvider
  | setProviderSlug (slug : Option String)
  | setReasoningEffort (effort : String)
  | attach
  | undo
  | redo
  | shutdown

/-- The effects of a handler on the session thread. -/
structure Effect where
  state : SessionState
  db : Db
  outputs : List Output := []

/-! ## Shared pieces -/

/-- Bump the modification time, refresh the daemon's index, store the record. -/
def persistSessionMetadata (env : Env) (now : Int) (s : SessionState) (db : Db) : Effect :=
  let s := { s with config := { s.config with lastModified := max s.config.lastModified now } }
  { state := s
    db := db.writeSession env.sessionId s.toRecord
    outputs := [.updateMetadata s.toMetadata] }

def broadcastTokenState (s : SessionState) : List Output :=
  [.broadcast (.tokenUsageUpdate s.config.accumulatedUsage s.config.lastPromptTokens),
    .updateMetadata s.toMetadata]

def failRequest (streamId : Nat) (error : String) : List Output :=
  [.reply (.failed error), .broadcast (.failed streamId error)]

/-- Take the next stream id; the 64-bit counter wraps. -/
def takeStreamId (s : SessionState) : SessionState × Nat :=
  ({ s with nextStreamId := (s.nextStreamId + 1) % 2 ^ 64 }, s.nextStreamId)

def noCredentialError (account : String) : String :=
  "no credential stored for account '" ++ account ++
    "' — add one via the AI Providers page or /add-key"

/-- The cached client, or one built from the account the daemon resolves. -/
def resolveProvider (s : SessionState) (account : Option ResolvedAccount) :
    SessionState × Except String InferenceProvider :=
  match s.provider with
  | some p => (s, .ok p)
  | none =>
      match s.config.accountName with
      | none =>
          (s, .error "no account configured on this session — use /account <name> to set one")
      | some name =>
          match account with
          | none => (s, .error (noCredentialError name))
          | some a =>
              let s := { s with providerSlug := some a.slug }
              match a.client with
              | .error e => (s, .error e)
              | .ok (perModel, window) =>
                  let p : InferenceProvider := ⟨a.slug, perModel, window⟩
                  ({ s with provider := some p }, .ok p)

def contextWindowEvent (window : Option Nat) : List Output :=
  match window with
  | some w => [.broadcast (.contextWindowResolved w)]
  | none => []

/-! ## Runs -/

/-- Accept a run: announce its first turn and register it as active. -/
def acceptRun (s : SessionState) (streamId : Nat) : SessionState × SessionEvent :=
  ({ s with activeRequests := s.activeRequests.insert streamId ⟨s.nextTurnId, 0⟩ },
    .started streamId s.nextTurnId 0)

/-- A user's input. The second component is the worker that was spawned. -/
def handleRunInput (env : Env) (shutdownRequested : Bool) (s : SessionState) (db : Db)
    (text : String) (account : Option ResolvedAccount) : Effect × Option Worker :=
  let (s, streamId) := takeStreamId s
  let text := trim text
  if text.isEmpty then ({ state := s, db, outputs := failRequest streamId "empty input" }, none)
  else
    match resolveProvider s account with
    | (s, .error e) => ({ state := s, db, outputs := failRequest streamId e }, none)
    | (s, .ok provider) =>
        let (s, window) := s.refreshContextWindow env
        let refreshed := contextWindowEvent window
        match s.config.selectedModel with
        | none =>
            ({ state := s, db, outputs := refreshed ++ failRequest streamId "no model selected" },
              none)
        | some model =>
            if shutdownRequested then
              ({ state := s, db
                 outputs := refreshed ++ failRequest streamId "session is shutting down" }, none)
            else if s.activeRequests.entries ≠ [] then
              ({ state := s, db
                 outputs := refreshed ++
                   failRequest streamId "session already has an active request" }, none)
            else
              let accepted := acceptRun s streamId
              ({ state := accepted.1, db
                 outputs := refreshed ++
                   [.reply (.started streamId s.nextTurnId), .broadcast accepted.2] },
                some (Worker.spawn streamId accepted.1 provider.slug model (some text) false))

/-- A run on a child session, on whatever turns are queued. -/
def handleRunChildInput (shutdownRequested : Bool) (s : SessionState) (db : Db)
    (userText : Option String) (account : Option ResolvedAccount) : Effect × Option Worker :=
  let (s, streamId) := takeStreamId s
  match resolveProvider s account with
  | (s, .error _) =>
      ({ state := s, db, outputs := [.childReply (.error "daemon locked")] }, none)
  | (s, .ok provider) =>
      let model := s.config.selectedModel.getD ""
      if shutdownRequested then
        ({ state := s, db, outputs := [.childReply (.error "session is shutting down")] }, none)
      else if s.activeRequests.entries ≠ [] then
        ({ state := s, db
           outputs := [.childReply (.error "session already has an active request")] }, none)
      else
        let accepted := acceptRun s streamId
        ({ state := accepted.1, db, outputs := [.broadcast accepted.2] },
          some (Worker.spawn streamId accepted.1 provider.slug model userText true))

/-- The active requests a cancel names; stream id zero names all of them. -/
def cancelTargets (s : SessionState) (streamId : Nat) : List Nat :=
  (if streamId = 0 then s.activeRequests.keys else [streamId]).filter
    fun rid => (s.activeRequests.get? rid).isSome

def cancelOutputs (targets : List Nat) : List Output :=
  targets.map fun rid => .broadcast (.cancelled rid)

/-! ## The end of a run -/

/-- Merge one turn of the worker's snapshot, writing it unless it is already
on disk or did not change. -/
def mergeTurn (env : Env) (persisted : Finset Nat) (acc : Turns × Db) (e : Nat × Turn) :
    Turns × Db :=
  let needsWrite :=
    match acc.1.get? e.1 with
    | some old => decide (old ≠ e.2)
    | none => true
  (acc.1.insert e.1 e.2,
    if !needsWrite || e.1 ∈ persisted then acc.2 else acc.2.writeTurn env.sessionId e.1 e.2)

/-- Merge a finished run back into the session. -/
def handleRequestFinished (env : Env) (now : Int) (s : SessionState) (db : Db) (streamId : Nat)
    (snapshot : SessionSnapshot) : Effect :=
  let config := s.config.applyWorkerSnapshot snapshot.config
  let s := { s with config := { config with lastModified := max config.lastModified now } }
  let db := db.writeSession env.sessionId s.toRecord
  let merged := snapshot.turns.entries.foldl (mergeTurn env snapshot.persistedTurns) (s.turns, db)
  let s :=
    { s with
      discoveredSkills := snapshot.discoveredSkills
      turns := merged.1
      nextTurnId :=
        match snapshot.turns.lastKey? with
        | some k => max s.nextTurnId (k + 1)
        | none => s.nextTurnId
      activeRequests := s.activeRequests.erase streamId
      config := { s.config with status := .inactive } }
  { state := s
    db := merged.2
    outputs :=
      [.updateMetadata s.toMetadata,
        .broadcast (.sessionStatusChanged .inactive now),
        .broadcastSessionStatus .inactive] }

/-! ## Undo and redo -/

def writeTurns (env : Env) (db : Db) (turns : List (Nat × Turn)) : Db :=
  turns.foldl (fun db e => db.writeTurn env.sessionId e.1 e.2) db

def handleUndo (env : Env) (s : SessionState) (db : Db) : Effect :=
  if s.activeRequests.entries ≠ [] then
    { state := s, db, outputs := [.reply (.failed "session is not idle")] }
  else
    match s.undoTurns with
    | none => { state := s, db, outputs := [.reply (.failed "nothing to undo")] }
    | some (s, turnIds) =>
        let hadChain := s.config.lastResponseId.isSome
        let s :=
          if hadChain then
            { s with config :=
              { s.config with lastResponseId := none, lastResponseIdProducer := none } }
          else s
        let db := if hadChain then db.writeSession env.sessionId s.toRecord else db
        let flipped := (s.turns.filter fun id _ => id ∈ turnIds).entries
        { state := s
          db := writeTurns env db flipped
          outputs :=
            .broadcast (.turnsUndone turnIds) :: broadcastTokenState s ++ [.reply .accepted] }

def handleRedo (env : Env) (s : SessionState) (db : Db) : Effect :=
  if s.activeRequests.entries ≠ [] then
    { state := s, db, outputs := [.reply (.failed "session is not idle")] }
  else
    match s.redoTurns with
    | none => { state := s, db, outputs := [.reply (.failed "nothing to redo")] }
    | some (s, restored) =>
        { state := s
          db := writeTurns env db restored.entries
          outputs :=
            .broadcast (.turnsRedone (restored.entries.map fun e => (e.1, e.2.forClient))) ::
              broadcastTokenState s ++ [.reply .accepted] }

/-! ## Configuration -/

/-- The reasoning efforts of the session's current model, when both the model
and a provider are known. -/
def currentCapability (env : Env) (s : SessionState) : Option (List String) :=
  s.config.selectedModel.bind fun model =>
    s.effectiveProviderSlug.map fun slug => env.availableEffortLevels slug model

/-- Store the record after a change, saying `before` first and `after` last. -/
def persistAnd (env : Env) (now : Int) (s : SessionState) (db : Db)
    (before after : List Output) : Effect :=
  let persisted := persistSessionMetadata env now s db
  { persisted with outputs := before ++ persisted.outputs ++ after }

/-- The stored effort is one that the model does not have. -/
def effortUnsupported (capability : Option (List String)) (effort : Option String) : Bool :=
  match capability, effort with
  | some levels, some effort => effort ≠ "off" && effort ∉ levels
  | _, _ => false

/-- Select a model and resolve its window. An effort that the new model does
not support falls back to "off". -/
def selectModel (env : Env) (s : SessionState) (model : String) : SessionState × List Output :=
  let window := s.resolveContextWindowForModel env model
  let s := { s with config :=
    { s.config with selectedModel := some model, contextWindow := window } }
  let capability := s.effectiveProviderSlug.map fun slug => env.availableEffortLevels slug model
  let reset := effortUnsupported capability s.config.reasoningEffort
  ({ s with config :=
      { s.config with
        reasoningEffort := if reset then some "off" else s.config.reasoningEffort } },
    contextWindowEvent window ++
      (if reset then [Output.broadcast (.reasoningEffortSet "off")] else []) ++
      [Output.broadcast (.modelSelected model capability)])

def handleSetModel (env : Env) (now : Int) (s : SessionState) (db : Db) (model : String)
    (validation : Option String) : Effect :=
  match validation with
  | some error =>
      { state := s, db
        outputs := [.reply (.failed error), .broadcast (.modelSelectionFailed model error)] }
  | none =>
      let selected := selectModel env s model
      persistAnd env now selected.1 db selected.2 [.reply .accepted]

def maxTitleChars : Nat := 200

def handleSetTitle (env : Env) (now : Int) (s : SessionState) (db : Db) (title : String) :
    Effect :=
  if maxTitleChars < env.graphemeCount title then
    { state := s, db, outputs := [.reply (.failed "title too long")] }
  else
    persistAnd env now { s with config := { s.config with title := some title } } db
      [.broadcast (.sessionTitleSet title)] [.reply .accepted]

def handleSetWorkingDir (env : Env) (now : Int) (s : SessionState) (db : Db) (path : String) :
    Effect :=
  persistAnd env now
    { s with
      config := { s.config with workingDir := some path }
      discoveredSkills := none } db
    [.broadcast (.sessionWorkingDirSet (some path))] [.toolReply none, .reply .accepted]

/-- Change the active tool groups, unless a named group does not exist. -/
def changeToolGroups (env : Env) (now : Int) (s : SessionState) (db : Db)
    (groups : List String) (known : Finset String)
    (change : Finset String → Finset String) : Effect :=
  let unknown := groups.filter fun g => g ∉ known
  if unknown ≠ [] then
    { state := s, db
      outputs :=
        [.toolReply (some ("Unknown tool group(s): " ++ String.intercalate ", " unknown))] }
  else
    let s := { s with config :=
      { s.config with activeToolGroups := change s.config.activeToolGroups } }
    persistAnd env now s db [.broadcast (s.sessionStateMessage env)] [.toolReply none]

def handleLoadTools (env : Env) (now : Int) (s : SessionState) (db : Db)
    (groups : List String) (known : Finset String) : Effect :=
  changeToolGroups env now s db groups known fun active => applyLoadTools active groups

def handleUnloadTools (env : Env) (now : Int) (s : SessionState) (db : Db)
    (groups : List String) (known : Finset String) : Effect :=
  changeToolGroups env now s db groups known fun active =>
    applyUnloadTools active groups env.protectedGroups

/-- Forget everything that belongs to the previous account. -/
def leaveAccount (s : SessionState) (name : String) : SessionState :=
  if s.config.accountName = some name then s
  else
    { s with
      provider := none
      config :=
        { s.config with selectedModel := none, reasoningEffort := none, contextWindow := none } }

/-- Record what the daemon knows about an account, and its client if one can
be built. -/
def bindProvider (s : SessionState) (account : Option ResolvedAccount) : SessionState :=
  { s with
    providerSlug := account.map ResolvedAccount.slug
    provider :=
      match account with
      | some a =>
          match a.client with
          | .ok (perModel, window) => some ⟨a.slug, perModel, window⟩
          | .error _ => s.provider
      | none => s.provider }

/-- Bind an account. A switch clears the model, so only a repeated binding of
the same account finds a model whose window it refreshes. -/
def bindAccount (env : Env) (s : SessionState) (name : String)
    (account : Option ResolvedAccount) : SessionState × List Output :=
  let switching := s.config.accountName ≠ some name
  let s := bindProvider (leaveAccount s name) account
  match s.config.selectedModel with
  | some model =>
      if switching then
        ({ s with config := { s.config with accountName := some name } }, [])
      else
        let window := s.resolveContextWindowForModel env model
        ({ s with config := { s.config with contextWindow := window, accountName := some name } },
          contextWindowEvent window)
  | none => ({ s with config := { s.config with accountName := some name } }, [])

def handleSetAccount (env : Env) (now : Int) (s : SessionState) (db : Db) (name : String)
    (account : Option ResolvedAccount) : Effect :=
  let bound := bindAccount env s name account
  persistAnd env now bound.1 db (bound.2 ++ [.broadcast (.sessionAccountSet name)])
    [.reply .accepted]

def maxEffortBytes : Nat := 64

/-- "off" is always valid, and anything is while no model is known. -/
def effortAccepted (capability : Option (List String)) (effort : String) : Bool :=
  match capability with
  | some levels => effort = "off" || effort ∈ levels
  | none => true

def handleSetReasoningEffort (env : Env) (s : SessionState) (db : Db) (effort : String) :
    Effect :=
  if maxEffortBytes < effort.utf8ByteSize then
    let error := "reasoning effort slug too long (" ++ effort.utf8ByteSize.repr ++ " bytes)"
    { state := s, db
      outputs := [.reply (.failed error), .broadcast (.reasoningEffortSetFailed effort error)] }
  else
    if effortAccepted (currentCapability env s) effort then
      { state := { s with config := { s.config with reasoningEffort := some effort } }, db
        outputs := [.broadcast (.reasoningEffortSet effort), .reply .accepted] }
    else
      let error := "model '" ++ s.config.selectedModel.getD "(none)" ++
        "' does not support reasoning effort '" ++ effort ++ "'"
      { state := s, db
        outputs := [.reply (.failed error), .broadcast (.reasoningEffortSetFailed effort error)] }

/-! ## Messages of the worker -/

/-- The worker's `Started` also updates what a late subscriber is told. -/
def trackLiveStarted (s : SessionState) : SessionEvent → SessionState
  | .started streamId turnId estimate =>
      { s with activeRequests := s.activeRequests.modify streamId fun _ => ⟨turnId, estimate⟩ }
  | _ => s

def handleBroadcast (s : SessionState) (db : Db) (event : SessionEvent) : Effect :=
  { state := trackLiveStarted s event, db, outputs := [.broadcast event] }

def handleStatusChanged (s : SessionState) (db : Db) (status : SessionStatus) : Effect :=
  let s := { s with config := { s.config with status := status } }
  { state := s, db
    outputs :=
      [.broadcast (.sessionStatusChanged status s.config.lastModified),
        .broadcastSessionStatus status] }

def handleSyncAccumulatedUsage (s : SessionState) (db : Db) (usage : TokenUsage)
    (lastPromptTokens : Option UInt32) : Effect :=
  let s := { s with config :=
    { s.config with
      accumulatedUsage := s.config.accumulatedUsage.mergeMax usage
      lastPromptTokens :=
        match lastPromptTokens with
        | some tokens => some tokens
        | none => s.config.lastPromptTokens } }
  { state := s, db, outputs := broadcastTokenState s }

def handleWorkerMessage (env : Env) (now : Int) (s : SessionState) (db : Db) :
    WorkerMessage → Effect
  | .broadcast event => handleBroadcast s db event
  | .statusChanged status => handleStatusChanged s db status
  | .syncAccumulatedUsage usage lastPromptTokens =>
      handleSyncAccumulatedUsage s db usage lastPromptTokens
  | .requestFinished streamId snapshot => handleRequestFinished env now s db streamId snapshot

/-- The replay a client receives when it attaches. -/
def attachOutputs (env : Env) (s : SessionState) : List Output :=
  s.activeRequests.entries.map (fun e =>
      .broadcast (.started e.1 e.2.turnId e.2.estimatedPromptTokens)) ++
    [Output.broadcast (s.sessionStateMessage env)]

end Choreographr.Session
