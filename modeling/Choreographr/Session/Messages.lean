import Choreographr.Session.State

/-!
# Messages of a session

What a session tells its clients (`SessionEvent`), what a request worker sends
to the session thread (`WorkerMessage`), and everything a step of the system
can be observed to do (`Output`). Besides replies, broadcasts and metadata
updates, an `Output` records each turn that a worker starts, so that laws about
turn ids over the life of a session can be stated on outputs.
-/

namespace Choreographr.Session

open Lib

/-- The snapshot of a session that clients receive. -/
structure SessionStateView where
  title : Option String
  selectedModel : Option String
  parentSessionId : Option Nat
  workingDir : Option String
  turns : List (Nat × Turn)
  activeToolGroups : Finset String
  tokenUsage : TokenUsage
  contextWindow : Option Nat
  lastPromptTokens : Option UInt32
  status : SessionStatus
  reasoningEffort : Option String
  reasoningCapability : Option (List String)
deriving DecidableEq

inductive SessionEvent where
  | started (streamId turnId estimatedPromptTokens : Nat)
  | done (streamId : Nat) (tokenUsage : TokenUsage) (lastPromptTokens : Option UInt32)
  | failed (streamId : Nat) (error : String)
  | cancelled (streamId : Nat)
  | turnAppended (turnId : Nat) (turn : Turn)
  | turnsUndone (turnIds : List Nat)
  | turnsRedone (turns : List (Nat × Turn))
  | tokenUsageUpdate (tokenUsage : TokenUsage) (lastPromptTokens : Option UInt32)
  | contextWindowResolved (contextWindow : Nat)
  | sessionStatusChanged (status : SessionStatus) (lastModified : Int)
  | modelSelected (model : String) (reasoningCapability : Option (List String))
  | modelSelectionFailed (model error : String)
  | reasoningEffortSet (effort : String)
  | reasoningEffortSetFailed (effort error : String)
  | sessionTitleSet (title : String)
  | sessionWorkingDirSet (path : Option String)
  | sessionAccountSet (account : String)
  | sessionState (view : SessionStateView)
deriving DecidableEq

/-- Commands a request worker sends to its session thread, in order. -/
inductive WorkerMessage where
  | broadcast (event : SessionEvent)
  | statusChanged (status : SessionStatus)
  | syncAccumulatedUsage (tokenUsage : TokenUsage) (lastPromptTokens : Option UInt32)
  | requestFinished (streamId : Nat) (snapshot : SessionSnapshot)
deriving DecidableEq

/-- The terminal answer to the client that sent a command. -/
inductive Reply where
  | accepted
  | started (streamId turnId : Nat)
  | failed (error : String)
deriving DecidableEq

structure ChildResult where
  output : String
  isError : Bool
deriving DecidableEq

inductive Output where
  | reply (r : Reply)
  /-- The answer to the tool that sent a command: its error, if it failed. -/
  | toolReply (error : Option String)
  | childReply (r : Except String ChildResult)
  | broadcast (event : SessionEvent)
  | updateMetadata (metadata : SessionMetadata)
  | broadcastSessionStatus (status : SessionStatus)
  /-- A worker started this turn. -/
  | startTurn (turnId : Nat) (userText : Option String)

/-- The snapshot broadcast to connected clients. -/
def SessionState.sessionStateMessage (env : Env) (s : SessionState) : SessionEvent :=
  .sessionState
    { title := s.config.title
      selectedModel := s.config.selectedModel
      parentSessionId := s.config.parentSessionId
      workingDir := s.config.workingDir
      turns := s.turns.entries.map fun e => (e.1, e.2.forClient)
      activeToolGroups := s.config.activeToolGroups
      tokenUsage := s.config.accumulatedUsage
      contextWindow := s.config.contextWindow
      lastPromptTokens := s.config.lastPromptTokens
      status := s.config.status
      reasoningEffort := s.config.reasoningEffort
      reasoningCapability :=
        s.config.selectedModel.bind fun model =>
          s.effectiveProviderSlug.map fun slug => env.availableEffortLevels slug model }

/-- The turn as clients are told about it, if it exists. -/
def SessionState.turnAppended (s : SessionState) (turnId : Nat) : List WorkerMessage :=
  match s.turns.get? turnId with
  | some t => [.broadcast (.turnAppended turnId t.forClient)]
  | none => []

end Choreographr.Session
