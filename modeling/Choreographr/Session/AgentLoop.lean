import Choreographr.Session.Messages
import Choreographr.Session.Projection
import Choreographr.Session.ToolBatch

/-!
# The request worker

A worker runs the agent loop on its private clone of the session. Each
iteration starts a turn, sends the whole conversation to the provider and
handles the answer: a final text ends the run, tool calls are executed and the
loop goes on, a truncated tool call is recorded and retried, any other failure
is marked on the turn and ends the run.

`Worker.step` splits the loop at the points where something outside it
decides: the provider's answer, the completion of a tool, a cancellation, the
outcome of a database write, and a panic, which can strike anywhere before the
loop returns. A run that panicked hands back the snapshot taken before the
loop, every other run hands back the worker's own state.

The provider is represented by what it has been shown: for each response id it
returned, the messages that request carried (or continued) and the reply
itself. Response ids are never reused by a provider.
-/

namespace Choreographr.Session

open Lib

/-! ## The provider -/

/-- The conversations a provider holds, keyed by its slug and a response id. -/
structure Server where
  held : List ((String × String) × List VisibleMessage)
deriving DecidableEq

namespace Server

def heldFor (s : Server) (slug responseId : String) : Option (List VisibleMessage) :=
  s.held.lookup (slug, responseId)

def store (s : Server) (slug responseId : String) (messages : List VisibleMessage) : Server :=
  ⟨((slug, responseId), messages) :: s.held⟩

end Server

/-- One inference request as the loop builds it. -/
structure InferenceRequest where
  messages : List ChatRequestMessage
  previousResponseId : Option String
deriving DecidableEq

/-- What the provider has seen once it has received a request: a route that
chains continues the stored conversation with the chained tail, every other
route is sent the whole list. -/
def requestContext (env : Env) (server : Server) (slug model : String)
    (r : InferenceRequest) : List VisibleMessage :=
  match r.previousResponseId with
  | some p =>
      if chainsViaResponseId env slug model then
        (server.heldFor slug p).getD [] ++ transcript (chainInputMessages r.messages)
      else transcript r.messages
  | none => transcript r.messages

/-! ## Worker state -/

structure FinalText where
  content : String
  reasoning : Option String := none
  truncated : Bool := false
  usage : Option TokenUsage := none
  responseId : Option String := none
  reasoningArtifact : Option ReasoningArtifact := none
deriving DecidableEq

/-- Every provider adapter answers with tool calls only if it has one. -/
structure ToolUse where
  content : Option String := none
  reasoning : Option String := none
  toolCalls : List ChatToolCall
  toolCalls_ne_nil : toolCalls ≠ [] := by exact List.cons_ne_nil _ _
  usage : Option TokenUsage := none
  responseId : Option String := none
  reasoningArtifact : Option ReasoningArtifact := none
deriving DecidableEq

inductive RequestOutcome where
  | done
  | failed (error : String)
  | cancelled
deriving DecidableEq

/-- What follows the final write of a turn. -/
inductive AfterFinalize where
  | answered
  | failed (error : String)
  | truncated
deriving DecidableEq

inductive Phase where
  /-- The thread exists; the loop has not been entered. -/
  | spawned
  /-- At the head of the loop. -/
  | top
  | awaiting (turnId : Nat) (request : InferenceRequest)
  | finalizing (turnId : Nat) (next : AfterFinalize)
  | tools (turnId : Nat) (batch : Batch)
  /-- The loop has returned or panicked. -/
  | returning (outcome : RequestOutcome) (snapshot : SessionSnapshot)
deriving DecidableEq

structure Worker where
  streamId : Nat
  session : SessionState
  initialSnapshot : SessionSnapshot
  slug : String
  model : String
  userText : Option String
  isChild : Bool
  /-- Messages waiting in the cancel channel. -/
  cancels : Nat
  prevRespId : Option String
  pendingUserText : Option String
  truncationRecoveries : Nat
  turnIter : Nat
  requestFirstTurnId : Nat
  phase : Phase
deriving DecidableEq

/-- The worker the session thread spawns for an accepted run. -/
def Worker.spawn (streamId : Nat) (state : SessionState) (slug model : String)
    (userText : Option String) (isChild : Bool) : Worker :=
  let session := SessionState.fromSnapshot state.snapshot
  { streamId, session, slug, model, userText, isChild
    initialSnapshot := session.snapshot
    cancels := 0
    prevRespId := none
    pendingUserText := none
    truncationRecoveries := 0
    turnIter := 0
    requestFirstTurnId := 0
    phase := .spawned }

def maxTruncationRecoveries : Nat := 3

def truncationRecoveryInstruction : String :=
  "Your previous response was truncated at the model's output-token limit while a tool call " ++
  "was being generated, so that call was discarded and did not run. Continue the task, but " ++
  "produce much smaller outputs: split large writes into several smaller tool calls (write a " ++
  "file in sections and append, or use multiple smaller files), and avoid emitting very large " ++
  "tool arguments in a single call."

def truncationNotice : String := "\n\n⚠ response truncated (length limit)"

/-- The visible record of a tool call that was cut off. -/
def truncatedToolCallText (discardedNames : List String) : String :=
  let names := discardedNames.filter fun n => !n.isEmpty
  let subject :=
    if names.isEmpty then "A tool call"
    else "The " ++ String.intercalate ", " names ++ " tool call"
  "[" ++ subject ++ " was cut off at the model's output-token limit before its arguments " ++
    "finished, so it did not run.]"

inductive WorkerEvent where
  /-- Enter the loop; `skills` is what a discovery would find now. -/
  | enter (skills : List SkillMeta)
  /-- The head of the loop, up to the provider call. -/
  | iterate (now : Int) (systemPrompt : String) (estimatedPromptTokens : Nat)
  /-- A status change while the provider call is under way. -/
  | status (status : SessionStatus)
  | finalText (r : FinalText)
  | toolUse (r : ToolUse)
  | unhandledVariant
  | providerCancelled
  | truncatedToolCall (discardedNames : List String)
  | providerError (error : String)
  /-- The final write of a turn; `writeError` is its error, if it fails. -/
  | finalize (writeError : Option String)
  | tool (e : BatchEvent)
  /-- The end of a tool-use iteration; `writeOk` tells whether its checkpoint
  succeeds. -/
  | toolsDone (writeOk : Bool)
  | panic
  /-- Report the outcome and end the thread. -/
  | finish
deriving DecidableEq

/-- The effects of a worker step. A finished worker is gone. -/
structure WorkerResult where
  worker : Option Worker
  db : Db
  server : Server
  sent : List WorkerMessage := []
  trace : List Output := []

/-! ## Steps -/

namespace Worker

/-- Add a reply's usage to the worker's counters. -/
def accumulateTokenUsage (s : SessionState) (usage : Option TokenUsage) : SessionState :=
  match usage with
  | some u =>
      { s with config :=
        { s.config with
          accumulatedUsage := s.config.accumulatedUsage.accumulate u
          lastPromptTokens := some u.inputTokens } }
  | none => s

/-- The live usage the worker pushes to the session thread. -/
def tokenUsageSync (s : SessionState) : WorkerMessage :=
  .syncAccumulatedUsage s.config.accumulatedUsage s.config.lastPromptTokens

/-- Persist the response id, on a route that chains. -/
def recordResponseId (env : Env) (w : Worker) (s : SessionState) (responseId : Option String) :
    SessionState :=
  if chainsViaResponseId env w.slug w.model then
    { s with config :=
      { s.config with
        lastResponseId := responseId
        lastResponseIdProducer := some ⟨w.slug, w.model⟩ } }
  else s

/-- The provider remembers a conversation under the id of its last response. -/
def remember (env : Env) (server : Server) (w : Worker) (turnId : Nat)
    (request : InferenceRequest) (responseId text : Option String)
    (calls : List AssistantToolCallRecord) : Option Server :=
  match responseId with
  | none => some server
  | some r =>
      if (server.heldFor w.slug r).isSome then none
      else
        some (server.store w.slug r
          (requestContext env server w.slug w.model request ++
            [⟨turnId, .assistant text calls⟩]))

def returning (w : Worker) (outcome : RequestOutcome) : Worker :=
  { w with phase := .returning outcome w.session.snapshot }

/-- Enter `run_agent_loop`. -/
def enter (env : Env) (w : Worker) (skills : List SkillMeta) : Worker :=
  let session :=
    { w.session with
      discoveredSkills :=
        match w.session.discoveredSkills with
        | some d => some d
        | none => some ⟨w.session.config.workingDir, skills⟩ }
  { w with
    session := session
    prevRespId := initialPrevRespId env w.session.config w.slug w.model
    requestFirstTurnId := w.session.nextTurnId
    phase := .top }

/-- The user text of the next turn. -/
def turnUserText (w : Worker) : Option String :=
  if w.turnIter = 0 then w.userText else w.pendingUserText

/-- Start a turn and send the request for it. -/
def beginTurn (env : Env) (w : Worker) (now : Int) (systemPrompt : String) : Worker × Nat :=
  let started := w.session.startTurn w.turnUserText now
  let request : InferenceRequest :=
    { messages :=
        buildChatRequestMessages env started.1.turns (some systemPrompt) w.slug w.model
          (some w.requestFirstTurnId)
      previousResponseId := w.prevRespId }
  ({ w with
      session := started.1
      pendingUserText := if w.turnIter = 0 then w.pendingUserText else none
      phase := .awaiting started.2 request },
    started.2)

/-- Record a final answer. -/
def answer (env : Env) (w : Worker) (turnId : Nat) (r : FinalText) : SessionState :=
  let session := accumulateTokenUsage w.session r.usage
  let text := if r.truncated then r.content ++ truncationNotice else r.content
  let session := session.setAssistantResponse turnId
    { text := some text
      reasoning := r.reasoning
      tokenUsage := r.usage
      reasoningArtifact := r.reasoningArtifact
      reasoningProducer := some ⟨w.slug, w.model⟩ }
  recordResponseId env w session r.responseId

/-- Record a tool-use answer and seed its placeholders. -/
def callTools (env : Env) (w : Worker) (turnId : Nat) (r : ToolUse) : SessionState :=
  let session := accumulateTokenUsage w.session r.usage
  let records := r.toolCalls.map ChatToolCall.toRecord
  let session := session.setAssistantResponse turnId
    { text := r.content
      reasoning := r.reasoning
      toolCalls := records
      tokenUsage := r.usage
      reasoningArtifact := r.reasoningArtifact
      reasoningProducer := some ⟨w.slug, w.model⟩ }
  let session := session.seedToolResults turnId records (invocationDescriptions env r.toolCalls)
  recordResponseId env w session r.responseId

/-- Record a completion on the session and in the database. -/
def recordCompletion (env : Env) (turnId : Nat) (acc : SessionState × Db) (c : Completion) :
    SessionState × Db :=
  (acc.1.modifyTurn turnId fun t => t.recordToolCompletion env c,
    match acc.1.turns.get? turnId with
    | some t => acc.2.recordToolCompletion env.sessionId turnId t c
    | none => acc.2)

/-- Record the completions of a batch step. -/
def recordCompletions (env : Env) (turnId : Nat) (s : SessionState) (db : Db)
    (completions : List Completion) : SessionState × Db :=
  completions.foldl (recordCompletion env turnId) (s, db)

/-- Write a turn and remember that it was written. -/
def persistTurn (env : Env) (db : Db) (s : SessionState) (turnId : Nat) : SessionState × Db :=
  ({ s with persistedTurns := insert turnId s.persistedTurns },
    match s.turns.get? turnId with
    | some t => db.writeTurn env.sessionId turnId t
    | none => db)

/-- Go on after the final write of a turn succeeded. -/
def afterFinalize (w : Worker) : AfterFinalize → Worker
  | .answered => w.returning .done
  | .failed error => w.returning (.failed error)
  | .truncated =>
      let session :=
        { w.session with config :=
          { w.session.config with lastResponseId := none, lastResponseIdProducer := none } }
      let w := { w with session := session, prevRespId := none }
      if maxTruncationRecoveries ≤ w.truncationRecoveries then w.returning .done
      else
        { w with
          pendingUserText := some truncationRecoveryInstruction
          turnIter := w.turnIter + 1
          phase := .top }

/-- Go on after the final write of a turn failed. The failure of the write
hides nothing but a success: a failed inference keeps its own error. -/
def afterFailedFinalize (w : Worker) (turnId : Nat) (error : String) : AfterFinalize → Worker
  | .failed inferenceError => w.returning (.failed inferenceError)
  | .answered | .truncated =>
      w.returning (.failed ("failed to persist turn " ++ turnId.repr ++ ": " ++ error))

/-- Mirror the accepted configuration changes, then mark what a cancelled
batch never ran. -/
def endTools (env : Env) (w : Worker) (turnId : Nat) (b : Batch) : SessionState :=
  let session := b.pending.foldl
    (fun s change => applyPendingConfigChange s env.protectedGroups change) w.session
  if b.cancelled then session.markUnexecutedToolResults turnId b.executed else session

/-- The result of a child run, for the parent session. -/
def childResult (w : Worker) : RequestOutcome → ChildResult
  | .done =>
      { output := String.intercalate "\n" (w.session.turns.values.filterMap Turn.assistantText)
        isError := false }
  | .failed error => { output := error, isError := true }
  | .cancelled => { output := "request cancelled", isError := true }

/-- The outcome message, if the outcome has one. -/
def outcomeMessages (w : Worker) : RequestOutcome → List WorkerMessage
  | .done =>
      [.broadcast (.done w.streamId w.session.config.accumulatedUsage
        w.session.config.lastPromptTokens)]
  | .failed error => [.broadcast (.failed w.streamId error)]
  | .cancelled => []

/-- One step of the worker, refused where the loop is not at that point. -/
def step (env : Env) (db : Db) (server : Server) (w : Worker) :
    WorkerEvent → Option WorkerResult
  | .enter skills =>
      match w.phase with
      | .spawned => some { worker := w.enter env skills, db, server }
      | _ => none
  | .iterate now systemPrompt estimate =>
      match w.phase with
      | .top =>
          if 0 < env.maxTurns ∧ env.maxTurns ≤ w.turnIter then
            some
              { worker := w.returning
                  (.failed ("tool loop exceeded " ++ env.maxTurns.repr ++ " iterations"))
                db, server }
          else if 0 < w.cancels then
            some { worker := { w with cancels := w.cancels - 1 }.returning .cancelled, db, server }
          else if w.session.nextTurnId + 1 < 2 ^ 32 then
            let begun := w.beginTurn env now systemPrompt
            some
              { worker := begun.1, db, server
                sent := begun.1.session.turnAppended begun.2 ++
                  [.statusChanged .sending,
                    .broadcast (.started w.streamId begun.2 estimate)]
                trace := [.startTurn begun.2 w.turnUserText] }
          else none
      | _ => none
  | .status status =>
      match w.phase with
      | .awaiting _ _ => some { worker := w, db, server, sent := [.statusChanged status] }
      | _ => none
  | .finalText r =>
      match w.phase with
      | .awaiting turnId request =>
          let session := w.answer env turnId r
          let text := if r.truncated then r.content ++ truncationNotice else r.content
          match remember env server w turnId request r.responseId (some text) [] with
          | none => none
          | some server =>
              some
                { worker := some { w with session, phase := .finalizing turnId .answered }
                  db, server, sent := [tokenUsageSync session] }
      | _ => none
  | .toolUse r =>
      match w.phase with
      | .awaiting turnId request =>
          let session := w.callTools env turnId r
          match remember env server w turnId request r.responseId r.content
              (r.toolCalls.map ChatToolCall.toRecord) with
          | none => none
          | some server =>
              some
                { worker := some
                    { w with
                      session
                      prevRespId := r.responseId
                      phase := .tools turnId (Batch.start (indexCalls env r.toolCalls)) }
                  db, server
                  sent := tokenUsageSync session :: session.turnAppended turnId }
      | _ => none
  | .unhandledVariant =>
      match w.phase with
      | .awaiting _ _ =>
          some
            { worker := w.returning (.failed "provider returned an unhandled turn result variant")
              db, server }
      | _ => none
  | .providerCancelled =>
      match w.phase with
      | .awaiting _ _ =>
          if 0 < w.cancels then
            some { worker := { w with cancels := w.cancels - 1 }.returning .cancelled, db, server }
          else none
      | _ => none
  | .truncatedToolCall names =>
      match w.phase with
      | .awaiting turnId _ =>
          some
            { worker := some
                { w with
                  session := w.session.setAssistantResponse turnId
                    { text := some (truncatedToolCallText names) }
                  truncationRecoveries := w.truncationRecoveries + 1
                  phase := .finalizing turnId .truncated }
              db, server }
      | _ => none
  | .providerError error =>
      match w.phase with
      | .awaiting turnId _ =>
          some
            { worker := some
                { w with
                  session := w.session.setTurnError turnId error
                  phase := .finalizing turnId (.failed error) }
              db, server }
      | _ => none
  | .finalize writeError =>
      match w.phase with
      | .finalizing turnId next =>
          match writeError with
          | none =>
              let written := persistTurn env db w.session turnId
              some
                { worker := { w with session := written.1 }.afterFinalize next
                  db := written.2, server
                  sent := written.1.turnAppended turnId }
          | some error =>
              some { worker := w.afterFailedFinalize turnId error next, db, server }
      | _ => none
  | .tool e =>
      match w.phase with
      | .tools turnId b =>
          if e.consumesCancel ∧ w.cancels = 0 then none
          else
            match b.step e with
            | none => none
            | some (b, completions) =>
                let recorded := recordCompletions env turnId w.session db completions
                some
                  { worker := some
                      { w with
                        session := recorded.1
                        cancels := if e.consumesCancel then w.cancels - 1 else w.cancels
                        phase := .tools turnId b }
                    db := recorded.2, server }
      | _ => none
  | .toolsDone writeOk =>
      match w.phase with
      | .tools turnId b =>
          match b.phase with
          | .done =>
              let session := w.endTools env turnId b
              let sent := if b.cancelled then session.turnAppended turnId else []
              let written :=
                if writeOk then persistTurn env db session turnId else (session, db)
              let w := { w with session := written.1 }
              some
                { worker := some
                    (if b.cancelled then w.returning .cancelled
                      else { w with turnIter := w.turnIter + 1, phase := .top })
                  db := written.2, server, sent }
          | _ => none
      | _ => none
  | .panic =>
      match w.phase with
      | .returning _ _ => none
      | _ =>
          some
            { worker := some
                { w with
                  phase := .returning (.failed "request worker panicked") w.initialSnapshot }
              db, server }
  | .finish =>
      match w.phase with
      | .returning outcome snapshot =>
          some
            { worker := none, db, server
              sent := w.outcomeMessages outcome ++ [.requestFinished w.streamId snapshot]
              trace := if w.isChild then [.childReply (.ok (w.childResult outcome))] else [] }
      | _ => none

end Worker

end Choreographr.Session
