import Choreographr.Lib.OrdMap
import Choreographr.Session.Types

/-!
# Session state

`SessionState` is the value the session thread owns; a request worker runs on a
clone of it, built by `fromSnapshot (snapshot s)` and merged back when the
request ends. The operations follow `SessionState`'s own methods: turns are
started, filled in place and flagged, `undoTurns` and `redoTurns` move batches
of turns between the conversation and the redo stack, and the two token
readouts are functions of the turn history.

The redo stack is kept newest first, so that a push is a `cons`. Turn ids are
natural numbers below `2 ^ 32`.
-/

namespace Choreographr.Session

open Lib

abbrev Turns := OrdMap Nat Turn

/-- A session's in-memory state. -/
structure SessionState where
  config : SessionConfig
  nextTurnId : Nat
  nextStreamId : Nat
  redoStack : List (List Nat)
  turns : Turns
  activeRequests : OrdMap Nat ActiveRequest
  provider : Option InferenceProvider
  providerSlug : Option String
  discoveredSkills : Option DiscoveredSkills
  persistedTurns : Finset Nat
deriving DecidableEq

/-- What a worker starts from and what it hands back. -/
structure SessionSnapshot where
  config : SessionConfig
  turns : Turns
  discoveredSkills : Option DiscoveredSkills
  providerSlug : Option String
  persistedTurns : Finset Nat
deriving DecidableEq

/-! ## Token readouts -/

/-- The prompt size of the newest live turn that reported one. -/
def liveLastPromptTokens (turns : Turns) : Option UInt32 :=
  (turns.values.reverse.filter fun t => !t.undone).findSome?
    fun t => t.tokenUsage.map TokenUsage.inputTokens

/-- Add a turn's usage, if it reported any, to a running total. -/
def addUsage (total : TokenUsage) (usage : Option TokenUsage) : TokenUsage :=
  match usage with
  | some u => total.accumulate u
  | none => total

/-- The lifetime total of a turn history, undone turns included. -/
def reconstructAccumulatedUsage (turns : Turns) : TokenUsage :=
  turns.values.foldl (fun total t => addUsage total t.tokenUsage) {}

/-! ## Operations on one turn -/

namespace Turn

def setAssistantResponse (t : Turn) (r : AssistantResponse) : Turn :=
  { t with
    assistantText := r.text
    assistantReasoning := r.reasoning
    toolCalls := r.toolCalls
    tokenUsage := r.tokenUsage
    reasoningArtifact := r.reasoningArtifact
    reasoningProducer := r.reasoningProducer }

/-- One empty placeholder per tool call, in call order. -/
def seedToolResults (t : Turn) (calls : List AssistantToolCallRecord)
    (descriptions : List String) : Turn :=
  { t with
    toolResults := List.zipWith (fun c d =>
      { callId := c.callId, name := c.name, content := "", isError := false,
        invocationDescription := d, image := none }) calls descriptions }

/-- Replace the first element that satisfies `p`. -/
def updateFirst {α : Type} (p : α → Bool) (f : α → α) : List α → List α
  | [] => []
  | x :: rest => if p x then f x :: rest else x :: updateFirst p f rest

/-- Fill the first result record with this call id. -/
def updateToolResult (t : Turn) (callId name : String) (output : ToolOutput) : Turn :=
  { t with
    toolResults := updateFirst (fun r => r.callId == callId) (fun r =>
      { r with
        name := name
        content := output.content
        isError := output.isError
        invocationDescription := output.invocationDescription
        image := output.imageRef }) t.toolResults }

/-- Mark every result whose call id was not executed. -/
def markUnexecutedToolResults (t : Turn) (executed : Finset String) : Turn :=
  { t with
    toolResults := t.toolResults.map fun r =>
      if r.callId ∈ executed then r
      else { r with content := "[cancelled — result not recorded]", isError := true } }

def addDisplayedImage (t : Turn) (image : DisplayedImageRecord) : Turn :=
  { t with displayedImages := t.displayedImages ++ [image] }

/-- The copy of a turn that clients receive: no reasoning payload, no image
bytes. -/
def forClient (t : Turn) : Turn :=
  { t with
    toolResults := t.toolResults.map fun r =>
      { r with image := r.image.map fun i => { i with data := [] } }
    displayedImages := t.displayedImages.map fun i => { i with data := [] }
    reasoningArtifact := none
    reasoningProducer := none }

end Turn

namespace SessionState

/-- `SessionState::empty`. -/
def empty : SessionState where
  config := {}
  nextTurnId := 0
  nextStreamId := 1
  redoStack := []
  turns := OrdMap.empty
  activeRequests := OrdMap.empty
  provider := none
  providerSlug := none
  discoveredSkills := none
  persistedTurns := ∅

def snapshot (s : SessionState) : SessionSnapshot where
  config := s.config
  turns := s.turns
  discoveredSkills := s.discoveredSkills
  providerSlug := s.providerSlug
  persistedTurns := s.persistedTurns

/-- One past the largest turn id, or zero. -/
def nextTurnIdOf (turns : Turns) : Nat :=
  match turns.lastKey? with
  | none => 0
  | some k => k + 1

/-- The worker's private state. Its turn counter continues from the largest
id present, its redo stack is empty and it has no client. -/
def fromSnapshot (snap : SessionSnapshot) : SessionState where
  config := snap.config
  nextTurnId := nextTurnIdOf snap.turns
  nextStreamId := 1
  redoStack := []
  turns := snap.turns
  activeRequests := OrdMap.empty
  provider := none
  providerSlug := snap.providerSlug
  discoveredSkills := snap.discoveredSkills
  persistedTurns := snap.persistedTurns

/-! ## Turns -/

/-- Start a turn and return its id. A turn with user text clears the redo
stack of the state it is started on. -/
def startTurn (s : SessionState) (userText : Option String) (now : Int) :
    SessionState × Nat :=
  let turn : Turn := { createdAt := now, userText := userText }
  ({ s with
      redoStack := if userText.isSome then [] else s.redoStack
      nextTurnId := s.nextTurnId + 1
      turns := s.turns.insert s.nextTurnId turn },
    s.nextTurnId)

def modifyTurn (s : SessionState) (turnId : Nat) (f : Turn → Turn) : SessionState :=
  { s with turns := s.turns.modify turnId f }

def setAssistantResponse (s : SessionState) (turnId : Nat) (r : AssistantResponse) :
    SessionState :=
  s.modifyTurn turnId fun t => t.setAssistantResponse r

def seedToolResults (s : SessionState) (turnId : Nat) (calls : List AssistantToolCallRecord)
    (descriptions : List String) : SessionState :=
  s.modifyTurn turnId fun t => t.seedToolResults calls descriptions

def markUnexecutedToolResults (s : SessionState) (turnId : Nat) (executed : Finset String) :
    SessionState :=
  s.modifyTurn turnId fun t => t.markUnexecutedToolResults executed

def setTurnError (s : SessionState) (turnId : Nat) (error : String) : SessionState :=
  s.modifyTurn turnId fun t => { t with error := some error }

/-- The newest live turn that carries user text. -/
def undoTarget (turns : Turns) : Option Nat :=
  (turns.entries.reverse.find? fun e => !e.2.undone && e.2.userText.isSome).map Prod.fst

/-- Hide the newest live user turn and every live turn after it, and push the
hidden ids. -/
def undoTurns (s : SessionState) : Option (SessionState × List Nat) :=
  match undoTarget s.turns with
  | none => none
  | some target =>
      let newlyUndone :=
        (s.turns.entries.filter fun e => target ≤ e.1 && !e.2.undone).map Prod.fst
      let turns := s.turns.mapVal fun id t =>
        if target ≤ id && !t.undone then { t with undone := true } else t
      some ({ s with
        turns := turns
        redoStack := newlyUndone :: s.redoStack
        config := { s.config with lastPromptTokens := liveLastPromptTokens turns } },
        newlyUndone)

/-- Pop the newest batch and make exactly its turns live again. -/
def redoTurns (s : SessionState) : Option (SessionState × Turns) :=
  match s.redoStack with
  | [] => none
  | ids :: rest =>
      let turns := s.turns.mapVal fun id t =>
        if id ∈ ids then { t with undone := false } else t
      some ({ s with
        turns := turns
        redoStack := rest
        config := { s.config with lastPromptTokens := liveLastPromptTokens turns } },
        turns.filter fun id _ => id ∈ ids)

/-! ## Catalog facts -/

def effectiveProviderSlug (s : SessionState) : Option String :=
  match s.provider with
  | some p => some p.slug
  | none => s.providerSlug

end SessionState

/-- Client-configuration overrides first, then the catalog. -/
def InferenceProvider.resolveContextWindow (env : Env) (p : InferenceProvider)
    (model : String) : Option Nat :=
  ((p.perModelContextWindow.lookup model).or p.defaultContextWindow).or
    (env.lookupContextWindow p.slug model)

namespace SessionState

def resolveContextWindowForModel (env : Env) (s : SessionState) (model : String) : Option Nat :=
  match s.provider with
  | some p => p.resolveContextWindow env model
  | none => s.providerSlug.bind fun slug => env.lookupContextWindow slug model

/-- Re-derive the context window. An unresolvable window leaves the stored
value, and the returned value is the newly stored one if it changed. -/
def refreshContextWindow (env : Env) (s : SessionState) : SessionState × Option Nat :=
  match s.config.selectedModel with
  | none => (s, none)
  | some model =>
      match s.resolveContextWindowForModel env model with
      | none => (s, none)
      | some resolved =>
          if s.config.contextWindow = some resolved then (s, none)
          else
            ({ s with config := { s.config with contextWindow := some resolved } },
              some resolved)

end SessionState

/-! ## Conversions -/

/-- The fields a worker owns; every other field keeps the session's value. -/
def SessionConfig.applyWorkerSnapshot (c snap : SessionConfig) : SessionConfig :=
  { c with
    accumulatedUsage := snap.accumulatedUsage
    contextWindow := snap.contextWindow
    lastPromptTokens := snap.lastPromptTokens
    lastResponseId := snap.lastResponseId
    lastResponseIdProducer := snap.lastResponseIdProducer }

namespace SessionState

def toMetadata (s : SessionState) : SessionMetadata where
  title := s.config.title
  selectedModel := s.config.selectedModel
  reasoningEffort := s.config.reasoningEffort
  parentSessionId := s.config.parentSessionId
  workingDir := s.config.workingDir
  createdAt := s.config.createdAt
  lastModified := s.config.lastModified
  turnCount := s.turns.entries.length
  status := s.config.status
  activeToolGroups := s.config.activeToolGroups
  accountName := s.config.accountName
  accumulatedUsage := s.config.accumulatedUsage
  contextWindow := s.config.contextWindow
  lastPromptTokens := s.config.lastPromptTokens
  pinned := false
  archivedAt := none

def toRecord (s : SessionState) : SessionRecord where
  title := s.config.title
  selectedModel := s.config.selectedModel
  reasoningEffort := s.config.reasoningEffort
  parentSessionId := s.config.parentSessionId
  workingDir := s.config.workingDir
  turnCount := s.turns.entries.length
  createdAt := s.config.createdAt
  lastModified := s.config.lastModified
  activeToolGroups := s.config.activeToolGroups
  contextConfig := s.config.contextConfig
  accountName := s.config.accountName
  lastResponseId := s.config.lastResponseId
  lastResponseIdProducer := s.config.lastResponseIdProducer
  pinned := false
  archivedAt := none

end SessionState

/-- The tool groups of a session that persisted none. -/
def defaultActiveToolGroups : Finset String := {"core", "git", "shell"}

/-- The state a session thread starts with: configuration from the record,
turns from the database, token readouts recomputed from the turns, and an
empty redo stack. -/
def SessionState.load (env : Env) (record : SessionRecord) (providerSlug : Option String)
    (turns : Turns) : SessionState :=
  let config : SessionConfig :=
    { title := record.title
      selectedModel := record.selectedModel
      reasoningEffort := record.reasoningEffort
      parentSessionId := record.parentSessionId
      workingDir := record.workingDir
      createdAt := record.createdAt
      lastModified := record.lastModified
      status := .inactive
      activeToolGroups :=
        if record.activeToolGroups = ∅ then defaultActiveToolGroups
        else record.activeToolGroups
      contextConfig := record.contextConfig
      accountName := record.accountName
      lastResponseId := record.lastResponseId
      lastResponseIdProducer := record.lastResponseIdProducer }
  let fresh := { SessionState.empty with config := config, providerSlug := providerSlug }
  let fresh := (fresh.refreshContextWindow env).1
  { fresh with
    turns := turns
    nextTurnId := SessionState.nextTurnIdOf turns
    config :=
      { fresh.config with
        accumulatedUsage := reconstructAccumulatedUsage turns
        lastPromptTokens := liveLastPromptTokens turns } }

end Choreographr.Session
