import Choreographr.Session.Proofs.Disk

/-!
# Active runs and what late subscribers are told

A session has at most one active run. Stream ids come from a counter that
starts at 1 with the session thread and moves on with every input, accepted or
not. A refused input changes nothing that a client can see but the context
window, which is refreshed before the input is judged.

A client that attaches during a run is told the turn of the latest `Started`
that the session thread has taken from the worker. The worker may be one turn
further, but then its newer `Started` is among the messages still to be taken,
and the client receives it in its turn (`live_runs`).
-/

namespace Choreographr.Session

open Lib

variable {env : Env} {s s' : System} {os : List Output}

/-! ## Stream ids -/

/-- An input, of a client or of a parent session. -/
def Action.isRun : Action → Bool
  | .command _ (.runInput _ _) => true
  | .command _ (.runChildInput _ _) => true
  | _ => false

def Action.isReload : Action → Bool
  | .reload _ => true
  | _ => false

theorem resolveProvider_nextStreamId (s : SessionState) (account : Option ResolvedAccount) :
    (resolveProvider s account).1.nextStreamId = s.nextStreamId := by
  unfold resolveProvider
  repeat' split
  all_goals rfl

theorem refreshContextWindow_nextStreamId (env : Env) (s : SessionState) :
    (s.refreshContextWindow env).1.nextStreamId = s.nextStreamId := by
  unfold SessionState.refreshContextWindow
  repeat' split
  all_goals rfl

theorem handleRunInput_nextStreamId (env : Env) (shutdownRequested : Bool) (s : SessionState)
    (db : Db) (text : String) (account : Option ResolvedAccount) :
    (handleRunInput env shutdownRequested s db text account).1.state.nextStreamId =
      (s.nextStreamId + 1) % 2 ^ 64 := by
  rw [handleRunInput]
  simp only
  split
  · rfl
  · have hResolve := resolveProvider_nextStreamId (takeStreamId s).1 account
    split
    · rename_i s₁ e hEq
      rw [hEq] at hResolve
      exact hResolve
    · rename_i s₁ provider hEq
      rw [hEq] at hResolve
      have hRefresh := (refreshContextWindow_nextStreamId env s₁).trans hResolve
      split
      · exact hRefresh
      · split
        · exact hRefresh
        · split
          · exact hRefresh
          · exact hRefresh

theorem handleRunChildInput_nextStreamId (shutdownRequested : Bool) (s : SessionState) (db : Db)
    (userText : Option String) (account : Option ResolvedAccount) :
    (handleRunChildInput shutdownRequested s db userText account).1.state.nextStreamId =
      (s.nextStreamId + 1) % 2 ^ 64 := by
  have hResolve := resolveProvider_nextStreamId (takeStreamId s).1 account
  rw [handleRunChildInput]
  simp only
  split
  · rename_i s₁ e hEq
    rw [hEq] at hResolve
    exact hResolve
  · rename_i s₁ provider hEq
    rw [hEq] at hResolve
    split
    · exact hResolve
    · split
      · exact hResolve
      · exact hResolve

theorem bindAccount_nextStreamId (env : Env) (s : SessionState) (name : String)
    (account : Option ResolvedAccount) :
    (bindAccount env s name account).1.nextStreamId = s.nextStreamId := by
  have hLeave : (leaveAccount s name).nextStreamId = s.nextStreamId := by
    unfold leaveAccount
    split <;> rfl
  unfold bindAccount
  simp only
  repeat' split
  all_goals exact hLeave

theorem handleUndo_nextStreamId (env : Env) (s : SessionState) (db : Db) :
    (handleUndo env s db).state.nextStreamId = s.nextStreamId := by
  unfold handleUndo
  split
  · rfl
  · unfold SessionState.undoTurns
    split
    · rfl
    · rename_i s₁ ids hUndo
      split at hUndo
      · cases hUndo
      · cases hUndo
        simp only
        split <;> rfl

theorem handleRedo_nextStreamId (env : Env) (s : SessionState) (db : Db) :
    (handleRedo env s db).state.nextStreamId = s.nextStreamId := by
  unfold handleRedo
  split
  · rfl
  · unfold SessionState.redoTurns
    split
    · rfl
    · rename_i s₁ restored hRedo
      split at hRedo
      · cases hRedo
      · cases hRedo
        rfl

/-- Only inputs take stream ids. -/
theorem command_nextStreamId (env : Env) (now : Int) (s : System) (c : Command) :
    (s.command env now c).1.main.nextStreamId =
      if (Action.command now c).isRun then (s.main.nextStreamId + 1) % 2 ^ 64
      else s.main.nextStreamId := by
  cases c with
  | runInput text account =>
    have hNext := handleRunInput_nextStreamId env s.shutdownRequested s.main s.db text account
    simp only [System.command]
    generalize handleRunInput env s.shutdownRequested s.main s.db text account = r at hNext ⊢
    exact hNext
  | runChildInput userText account =>
    have hNext :=
      handleRunChildInput_nextStreamId s.shutdownRequested s.main s.db userText account
    simp only [System.command]
    generalize handleRunChildInput s.shutdownRequested s.main s.db userText account = r
      at hNext ⊢
    exact hNext
  | setModel model validation =>
    cases validation with
    | some error => rfl
    | none => rfl
  | setTitle title =>
    simp only [System.command, handleSetTitle]
    split <;> rfl
  | loadTools groups known =>
    simp only [System.command, handleLoadTools, changeToolGroups]
    split <;> rfl
  | unloadTools groups known =>
    simp only [System.command, handleUnloadTools, changeToolGroups]
    split <;> rfl
  | setAccount name account => exact bindAccount_nextStreamId env _ name account
  | setReasoningEffort effort =>
    simp only [System.command, handleSetReasoningEffort]
    split
    · rfl
    · split <;> rfl
  | undo => exact handleUndo_nextStreamId env _ _
  | redo => exact handleRedo_nextStreamId env _ _
  | _ => rfl

/-- A step that does not restart the thread moves the counter by one for an
input and leaves it alone otherwise. -/
theorem step_nextStreamId {a : Action} (hStep : (system env).step s a = some (s', os))
    (hReload : a.isReload = false) :
    s'.main.nextStreamId =
      if a.isRun then (s.main.nextStreamId + 1) % 2 ^ 64 else s.main.nextStreamId := by
  cases a with
  | command now c =>
    simp only [system, System.step, Option.some.injEq] at hStep
    have hNext := command_nextStreamId env now s c
    rw [hStep] at hNext
    exact hNext
  | deliver now =>
    cases move_of_step hStep with
    | deliver _ m rest hInbox =>
      cases m with
      | broadcast event => cases event <;> rfl
      | _ => rfl
  | worker e =>
    cases move_of_step hStep with
    | worker _ w r hWorker hMove => rfl
  | reload providerSlug => cases hReload

theorem load_nextStreamId (env : Env) (record : SessionRecord) (slug : Option String)
    (turns : Turns) : (SessionState.load env record slug turns).nextStreamId = 1 := by
  unfold SessionState.load
  exact refreshContextWindow_nextStreamId env _

theorem reload_nextStreamId {slug : Option String}
    (hStep : (system env).step s (.reload slug) = some (s', os)) : s'.main.nextStreamId = 1 := by
  cases move_of_step hStep with
  | reload _ record hIdle hRecord => exact load_nextStreamId env record slug _

/-- The stream ids that the inputs of a run are given, in order. -/
def streamIds (env : Env) : System → List Action → List Nat
  | _, [] => []
  | s, a :: rest =>
      match s.step env a with
      | none => []
      | some (s', _) =>
          if a.isRun then s.main.nextStreamId :: streamIds env s' rest else streamIds env s' rest

/-- The ids of a thread are consecutive; the 64-bit counter wraps. -/
theorem streamIds_eq (env : Env) (start : Nat) {actions : List Action}
    (hReload : ∀ a ∈ actions, a.isReload = false) (hStart : s.main.nextStreamId = start % 2 ^ 64) :
    streamIds env s actions =
      (List.range' start (streamIds env s actions).length).map (· % 2 ^ 64) := by
  induction actions generalizing s start with
  | nil => rfl
  | cons a rest ih =>
    have hRest : ∀ a ∈ rest, a.isReload = false := fun a ha => hReload a (List.mem_cons_of_mem _ ha)
    simp only [streamIds]
    split
    · rfl
    · rename_i s' os hStep
      have hNext := step_nextStreamId (show (system env).step s a = some (s', os) from hStep)
        (hReload a List.mem_cons_self)
      split
      · rename_i hRun
        rw [if_pos hRun] at hNext
        have hNextStart : s'.main.nextStreamId = (start + 1) % 2 ^ 64 := by
          rw [hNext, hStart, Nat.mod_add_mod]
        rw [List.length_cons, List.range'_succ, List.map_cons, ← ih (start + 1) hRest hNextStart,
          hStart]
      · rename_i hRun
        rw [if_neg hRun] at hNext
        exact ih start hRest (hNext.trans hStart)

/-- Before the counter wraps, the ids are non-zero and strictly increasing. -/
theorem streamIds_increasing {actions : List Action} (hReload : ∀ a ∈ actions, a.isReload = false)
    (hStart : s.main.nextStreamId = 1) (hFew : (streamIds env s actions).length < 2 ^ 64) :
    (streamIds env s actions).Pairwise (· < ·) ∧ 0 ∉ streamIds env s actions := by
  have hIds := streamIds_eq env 1 hReload hStart
  have hExact : streamIds env s actions = List.range' 1 (streamIds env s actions).length := by
    nth_rewrite 1 [hIds]
    nth_rewrite 2 [← List.map_id (List.range' 1 _)]
    apply List.map_congr_left
    intro id hId
    rw [List.mem_range'_1] at hId
    exact Nat.mod_eq_of_lt (by omega)
  rw [hExact]
  refine ⟨List.pairwise_lt_range', ?_⟩
  intro hZero
  rw [List.mem_range'_1] at hZero
  omega

/-- The stream id with which an output answers an input. -/
def Output.streamId? : Output → Option Nat
  | .reply (.started streamId _) => some streamId
  | .broadcast (.failed streamId _) => some streamId
  | _ => none

theorem filterMap_contextWindowEvent (window : Option Nat) (outputs : List Output) :
    (contextWindowEvent window ++ outputs).filterMap Output.streamId? =
      outputs.filterMap Output.streamId? := by
  cases window <;> rfl

theorem handleRunInput_told (env : Env) (shutdownRequested : Bool) (s : SessionState)
    (db : Db) (text : String) (account : Option ResolvedAccount) :
    (handleRunInput env shutdownRequested s db text account).1.outputs.filterMap
        Output.streamId? = [s.nextStreamId] ∧
      ∀ w, (handleRunInput env shutdownRequested s db text account).2 = some w →
        w.streamId = s.nextStreamId := by
  rw [handleRunInput]
  simp only
  repeat' split
  all_goals refine ⟨?_, fun w hSpawn => ?_⟩
  all_goals first
    | rfl
    | exact filterMap_contextWindowEvent _ _
    | cases hSpawn; done
    | (cases hSpawn; rfl)

theorem handleRunChildInput_told (shutdownRequested : Bool) (s : SessionState) (db : Db)
    (userText : Option String) (account : Option ResolvedAccount) :
    (handleRunChildInput shutdownRequested s db userText account).1.outputs.filterMap
        Output.streamId? = [] ∧
      ∀ w, (handleRunChildInput shutdownRequested s db userText account).2 = some w →
        w.streamId = s.nextStreamId := by
  rw [handleRunChildInput]
  simp only
  repeat' split
  all_goals refine ⟨rfl, fun w hSpawn => ?_⟩
  all_goals cases hSpawn
  rfl

/-- An input makes the value of the counter known, and no other id: a client's
input in its answer, and an accepted one as the id of the worker it starts. -/
structure HandsOut (s s' : System) (a : Action) (os : List Output) : Prop where
  told : (∃ now text account, a = .command now (.runInput text account)) →
    os.filterMap Output.streamId? = [s.main.nextStreamId]
  untold : (∃ now userText account, a = .command now (.runChildInput userText account)) →
    os.filterMap Output.streamId? = []
  started : ∀ w, s.worker = none → s'.worker = some w → w.streamId = s.main.nextStreamId

theorem step_handsOut {a : Action} (hStep : (system env).step s a = some (s', os))
    (hRun : a.isRun = true) : HandsOut s s' a os := by
  cases a with
  | command now c =>
    simp only [system, System.step, Option.some.injEq] at hStep
    cases c with
    | runInput text account =>
      have hTold := handleRunInput_told env s.shutdownRequested s.main s.db text account
      simp only [System.command] at hStep
      generalize handleRunInput env s.shutdownRequested s.main s.db text account = r
        at hTold hStep
      cases hStep
      refine ⟨fun _ => hTold.1, ?_, ?_⟩
      · rintro ⟨_, _, _, hChild⟩
        cases hChild
      · intro w hNone hWorker
        simp only [hNone] at hWorker
        split at hWorker
        · exact hTold.2 w (by rwa [← hWorker])
        · cases hWorker
    | runChildInput userText account =>
      have hTold := handleRunChildInput_told s.shutdownRequested s.main s.db userText account
      simp only [System.command] at hStep
      generalize handleRunChildInput s.shutdownRequested s.main s.db userText account = r
        at hTold hStep
      cases hStep
      refine ⟨?_, fun _ => hTold.1, ?_⟩
      · rintro ⟨_, _, _, hInput⟩
        cases hInput
      · intro w hNone hWorker
        simp only [hNone] at hWorker
        split at hWorker
        · exact hTold.2 w (by rwa [← hWorker])
        · cases hWorker
    | _ => cases hRun
  | _ => cases hRun

/-! ## Refused inputs -/

/-- Everything but the context window, the client and the stream counter. -/
structure SameSettings (s s' : SessionState) : Prop where
  turns : s'.turns = s.turns
  redoStack : s'.redoStack = s.redoStack
  config : s'.config = { s.config with contextWindow := s'.config.contextWindow }
  activeRequests : s'.activeRequests = s.activeRequests

theorem SameSettings.trans {s₁ s₂ s₃ : SessionState} (h₁ : SameSettings s₁ s₂)
    (h₂ : SameSettings s₂ s₃) : SameSettings s₁ s₃ where
  turns := h₂.turns.trans h₁.turns
  redoStack := h₂.redoStack.trans h₁.redoStack
  config := by rw [h₂.config, h₁.config]
  activeRequests := h₂.activeRequests.trans h₁.activeRequests

theorem resolveProvider_sameSettings (s : SessionState) (account : Option ResolvedAccount) :
    SameSettings s (resolveProvider s account).1 := by
  unfold resolveProvider
  repeat' split
  all_goals exact ⟨rfl, rfl, rfl, rfl⟩

theorem refreshContextWindow_sameSettings (env : Env) (s : SessionState) :
    SameSettings s (s.refreshContextWindow env).1 := by
  unfold SessionState.refreshContextWindow
  repeat' split
  all_goals exact ⟨rfl, rfl, rfl, rfl⟩

/-- An input is refused, with the id it was given, or accepted. -/
theorem handleRunInput_refused_or_accepted (env : Env) (shutdownRequested : Bool)
    (s : SessionState) (db : Db) (text : String) (account : Option ResolvedAccount) :
    (SameSettings s (handleRunInput env shutdownRequested s db text account).1.state ∧
        (handleRunInput env shutdownRequested s db text account).1.db = db ∧
        (handleRunInput env shutdownRequested s db text account).2 = none ∧
        ∃ error, .broadcast (.failed s.nextStreamId error) ∈
          (handleRunInput env shutdownRequested s db text account).1.outputs) ∨
      ((∃ turnId, .reply (.started s.nextStreamId turnId) ∈
          (handleRunInput env shutdownRequested s db text account).1.outputs) ∧
        ∀ error, .reply (.failed error) ∉
          (handleRunInput env shutdownRequested s db text account).1.outputs) := by
  have hFailed : ∀ error, Output.broadcast (.failed s.nextStreamId error) ∈
      failRequest s.nextStreamId error := by
    intro error
    exact List.mem_cons_of_mem _ List.mem_cons_self
  have hTake : SameSettings s (takeStreamId s).1 := ⟨rfl, rfl, rfl, rfl⟩
  rw [handleRunInput]
  simp only
  split
  · left
    exact ⟨hTake, rfl, rfl, _, hFailed _⟩
  · have hResolve := resolveProvider_sameSettings (takeStreamId s).1 account
    split
    · rename_i s₁ e hEq
      rw [hEq] at hResolve
      left
      exact ⟨hTake.trans hResolve, rfl, rfl, _, hFailed _⟩
    · rename_i s₁ provider hEq
      rw [hEq] at hResolve
      have hSettings := (hTake.trans hResolve).trans (refreshContextWindow_sameSettings env s₁)
      split
      · left
        exact ⟨hSettings, rfl, rfl, _, List.mem_append_right _ (hFailed _)⟩
      · split
        · left
          exact ⟨hSettings, rfl, rfl, _, List.mem_append_right _ (hFailed _)⟩
        · split
          · left
            exact ⟨hSettings, rfl, rfl, _, List.mem_append_right _ (hFailed _)⟩
          · right
            refine ⟨⟨_, List.mem_append_right _ List.mem_cons_self⟩, ?_⟩
            intro error hMem
            rcases List.mem_append.mp hMem with hMem | hMem
            · cases hWindow : (s₁.refreshContextWindow env).2 with
              | none => rw [hWindow] at hMem; cases hMem
              | some window =>
                rw [hWindow, contextWindowEvent, List.mem_singleton] at hMem
                cases hMem
            · rw [List.mem_cons, List.mem_singleton] at hMem
              rcases hMem with hMem | hMem <;> cases hMem

theorem refused_input {now : Int} {text : String} {account : Option ResolvedAccount}
    (hStep : (system env).step s (.command now (.runInput text account)) = some (s', os))
    (hFailed : ∃ error, .reply (.failed error) ∈ os) :
    SameSettings s.main s'.main ∧ s'.db = s.db ∧ s'.worker = s.worker := by
  have hCases :=
    handleRunInput_refused_or_accepted env s.shutdownRequested s.main s.db text account
  simp only [system, System.step, System.command] at hStep
  generalize handleRunInput env s.shutdownRequested s.main s.db text account = r at hCases hStep
  cases hStep
  rcases hCases with ⟨hSettings, hDb, hNone, _⟩ | ⟨_, hAccepted⟩
  · refine ⟨hSettings, hDb, ?_⟩
    simp only [hNone]
  · obtain ⟨error, hError⟩ := hFailed
    exact absurd hError (hAccepted error)

/-! ## The turn that late subscribers are told -/

/-- The stream and the turn that a relayed `Started` names. -/
def WorkerMessage.startedTurn : WorkerMessage → Option (Nat × Nat)
  | .broadcast (.started streamId turnId _) => some (streamId, turnId)
  | _ => none

/-- The turn of the newest `Started` among the messages. -/
def lastStarted (inbox : List WorkerMessage) : Option Nat :=
  (inbox.filterMap fun m => m.startedTurn.map Prod.snd).getLast?

theorem lastStarted_append_of_none {inbox sent : List WorkerMessage}
    (h : ∀ m ∈ sent, m.startedTurn = none) : lastStarted (inbox ++ sent) = lastStarted inbox := by
  have hNil : (sent.filterMap fun m => m.startedTurn.map Prod.snd) = [] := by
    rw [List.filterMap_eq_nil_iff]
    intro m hm
    rw [h m hm]
    rfl
  rw [lastStarted, List.filterMap_append, hNil, List.append_nil, lastStarted]

theorem lastStarted_cons (m : WorkerMessage) (rest : List WorkerMessage) :
    lastStarted (m :: rest) = (lastStarted rest).or (m.startedTurn.map Prod.snd) := by
  simp only [lastStarted, List.filterMap_cons]
  cases m.startedTurn with
  | none => simp
  | some x =>
    simp only [Option.map_some, List.getLast?_cons]
    cases (rest.filterMap fun m => m.startedTurn.map Prod.snd).getLast? <;> rfl

/-- The turn that the session thread will have been told once it has taken
every message of the worker. -/
def announcedTurn (inbox : List WorkerMessage) (active : OrdMap Nat ActiveRequest)
    (streamId : Nat) : Option Nat :=
  (lastStarted inbox).or ((active.get? streamId).map ActiveRequest.turnId)

/-- Every `Started` of the worker names its own stream, and the newest one names
the turn it is writing. -/
structure Tracks (inbox : List WorkerMessage) (active : OrdMap Nat ActiveRequest) (w : Worker) :
    Prop where
  stream : ∀ m ∈ inbox, ∀ x ∈ m.startedTurn, x.1 = w.streamId
  turn : ∀ id, w.phase.turnId? = some id → announcedTurn inbox active w.streamId = some id

def LiveInv (s : System) : Prop :=
  ∀ w, s.worker = some w → Tracks s.inbox s.main.activeRequests w

theorem startedTurn_turnAppended (s : SessionState) (id : Nat) :
    ∀ m ∈ s.turnAppended id, m.startedTurn = none := by
  intro m hm
  rw [SessionState.turnAppended] at hm
  split at hm
  · rw [List.mem_singleton] at hm
    subst hm
    rfl
  · cases hm

theorem Worker.Between.turnId? {w w' : Worker} {session : SessionState}
    {prevRespId : Option String} (h : w.Between w' session prevRespId) :
    w'.phase.turnId? = none := by
  rcases h.phase with hTop | ⟨outcome, hReturning⟩
  · rw [hTop]
    rfl
  · rw [hReturning]
    rfl

namespace Tracks

variable {inbox sent : List WorkerMessage} {active : OrdMap Nat ActiveRequest} {w w' : Worker}

/-- A step that announces no turn and stays on the worker's turn or leaves it. -/
theorem quiet (h : Tracks inbox active w) (hStream : w'.streamId = w.streamId)
    (hSent : ∀ m ∈ sent, m.startedTurn = none)
    (hTurn : ∀ id, w'.phase.turnId? = some id → w.phase.turnId? = some id) :
    Tracks (inbox ++ sent) active w' where
  stream := by
    intro m hm x hx
    rw [hStream]
    rcases List.mem_append.mp hm with hm | hm
    · exact h.stream m hm x hx
    · rw [hSent m hm] at hx
      cases hx
  turn := by
    intro id hId
    rw [announcedTurn, lastStarted_append_of_none hSent, hStream]
    exact h.turn id (hTurn id hId)

theorem leave (h : Tracks inbox active w) (hStream : w'.streamId = w.streamId)
    (hSent : ∀ m ∈ sent, m.startedTurn = none) (hTurn : w'.phase.turnId? = none) :
    Tracks (inbox ++ sent) active w' := by
  refine h.quiet hStream hSent ?_
  intro id hId
  rw [hTurn] at hId
  cases hId

/-- The worker starts its next turn and says so last. -/
theorem beginTurn {messages : List WorkerMessage} (turnId estimate : Nat)
    (h : Tracks inbox active w) (hStream : w'.streamId = w.streamId)
    (hSent : ∀ m ∈ messages, m.startedTurn = none) (hTurn : w'.phase.turnId? = some turnId) :
    Tracks (inbox ++ (messages ++ [.broadcast (.started w.streamId turnId estimate)])) active w' where
  stream := by
    intro m hm x hx
    rw [hStream]
    rcases List.mem_append.mp hm with hm | hm
    · exact h.stream m hm x hx
    · rcases List.mem_append.mp hm with hm | hm
      · rw [hSent m hm] at hx
        cases hx
      · rw [List.mem_singleton] at hm
        subst hm
        cases hx
        rfl
  turn := by
    intro id hId
    rw [hTurn] at hId
    cases hId
    simp [announcedTurn, lastStarted, WorkerMessage.startedTurn]

/-- Every step of the worker keeps track. -/
theorem step {db : Db} {server : Server} {e : WorkerEvent} {r : WorkerResult}
    (h : Tracks inbox active w) (hMove : w.Move env db server e r) (hNext : r.worker = some w') :
    Tracks (inbox ++ r.sent) active w' := by
  have hStream : w'.streamId = w.streamId := hMove.streamId hNext
  have hNil : ∀ m ∈ ([] : List WorkerMessage), m.startedTurn = none := by simp
  cases hMove with
  | enter skills hPhase =>
    cases hNext
    exact h.leave hStream hNil rfl
  | stop w'' hBetween hStopped hPoint =>
    cases hNext
    exact h.leave hStream hNil hBetween.turnId?
  | beginTurn now systemPrompt estimate hStart hBound =>
    cases hNext
    have hSent : ∀ m ∈ (w.beginTurn env now systemPrompt).1.session.turnAppended
        w.session.nextTurnId ++ [WorkerMessage.statusChanged .sending],
        m.startedTurn = none := by
      intro m hm
      rcases List.mem_append.mp hm with hm | hm
      · exact startedTurn_turnAppended _ _ m hm
      · rw [List.mem_singleton] at hm
        subst hm
        rfl
    have hTracks := h.beginTurn w.session.nextTurnId estimate hStream hSent rfl
    rw [List.append_assoc] at hTracks
    exact hTracks
  | status status =>
    cases hNext
    refine h.quiet hStream ?_ fun id hId => hId
    intro m hm
    rw [List.mem_singleton] at hm
    subst hm
    rfl
  | finalText turnId request r server' hPhase hServer =>
    cases hNext
    refine h.quiet hStream ?_ ?_
    · intro m hm
      rw [List.mem_singleton] at hm
      subst hm
      rfl
    · intro id hId
      rw [hPhase]
      exact hId
  | toolUse turnId request r server' hPhase hServer =>
    cases hNext
    refine h.quiet hStream ?_ ?_
    · intro m hm
      rcases List.mem_cons.mp hm with rfl | hm
      · rfl
      · exact startedTurn_turnAppended _ _ m hm
    · intro id hId
      rw [hPhase]
      exact hId
  | annotate turnId request f recoveries next hPhase hNote =>
    cases hNext
    refine h.quiet hStream hNil ?_
    intro id hId
    rw [hPhase]
    exact hId
  | finalized turnId next w'' hPhase hBetween =>
    cases hNext
    exact h.leave hStream (startedTurn_turnAppended _ _) hBetween.turnId?
  | tool e turnId b b' completions cancels hPhase hStep =>
    cases hNext
    refine h.quiet hStream hNil ?_
    intro id hId
    rw [hPhase]
    exact hId
  | toolsDone writeOk turnId b w'' hPhase hDone written hWritten hBetween =>
    cases hNext
    refine h.leave hStream ?_ hBetween.turnId?
    intro m hm
    split at hm
    · exact startedTurn_turnAppended _ _ m hm
    · cases hm
  | panic hPhase =>
    cases hNext
    exact h.leave hStream hNil rfl
  | finish outcome snapshot hPhase => cases hNext

end Tracks

/-- Taking a message moves what it announces from the inbox to the record of the
active run. -/
theorem announcedTurn_deliver (env : Env) (now : Int) {s : SessionState} (db : Db)
    {m : WorkerMessage} (rest : List WorkerMessage) {streamId : Nat} (hProgress : m.Progress)
    (hStream : ∀ x ∈ m.startedTurn, x.1 = streamId)
    (hActive : ∃ active, s.activeRequests.get? streamId = some active) :
    announcedTurn rest (handleWorkerMessage env now s db m).state.activeRequests streamId =
      announcedTurn (m :: rest) s.activeRequests streamId := by
  obtain ⟨active, hActive⟩ := hActive
  rw [announcedTurn, announcedTurn, lastStarted_cons, Option.or_assoc]
  congr 1
  cases m with
  | broadcast event =>
    cases event with
    | started sid turnId estimate =>
      have hSid : sid = streamId := hStream (sid, turnId) rfl
      subst hSid
      simp [handleWorkerMessage, handleBroadcast, trackLiveStarted, hActive,
        WorkerMessage.startedTurn]
    | _ => rfl
  | requestFinished sid snapshot => exact absurd rfl (hProgress sid snapshot)
  | _ => rfl

theorem liveInv_step {a : Action} (hInv : Inv env s) (h : LiveInv s)
    (hStep : Transition env s a s' os) : LiveInv s' := by
  cases hStep with
  | quiet e targets shutdown hQuiet =>
    intro w' hWorker'
    simp only [System.signalCancel, System.applyEffect, Option.map_eq_some_iff] at hWorker'
    obtain ⟨w, hWorker, rfl⟩ := hWorker'
    have hTracks := h w hWorker
    refine ⟨hTracks.stream, ?_⟩
    intro id hId
    have hActive : (s.applyEffect e).main.activeRequests = s.main.activeRequests :=
      hQuiet.activeRequests
    simp only [System.signalCancel, hActive]
    exact hTracks.turn id hId
  | accept e w hWorker hInbox hReadouts hAccept =>
    intro w' hWorker'
    cases hWorker'
    refine ⟨?_, ?_⟩
    · intro m hm
      simp only [System.applyEffect, hInbox] at hm
      cases hm
    · intro id hId
      rw [hAccept.spawned] at hId
      cases hId
  | undo e target hIdle hWorker hInbox hReadouts hUndo =>
    intro w' hWorker'
    rw [System.applyEffect, hWorker] at hWorker'
    cases hWorker'
  | redo e ids hIdle hWorker hInbox hReadouts hRedo =>
    intro w' hWorker'
    rw [System.applyEffect, hWorker] at hWorker'
    cases hWorker'
  | progress now m rest hInbox hProgress =>
    intro w hWorker
    have hTracks := h w hWorker
    rw [hInbox] at hTracks
    obtain ⟨hKeys, _, _⟩ := hInv.of_worker (show s.worker = some w from hWorker)
    have hActive : ∃ active, s.main.activeRequests.get? w.streamId = some active := by
      apply OrdMap.mem_keys_iff.mp
      rw [hKeys]
      exact List.mem_singleton_self _
    refine ⟨fun m' hm' => hTracks.stream m' (List.mem_cons_of_mem _ hm'), ?_⟩
    intro id hId
    have hAnnounced := announcedTurn_deliver env now s.db rest hProgress
      (hTracks.stream m List.mem_cons_self) hActive
    exact hAnnounced.trans (hTracks.turn id hId)
  | merge now streamId snapshot hInbox hWorker hActive hSnapshot =>
    intro w' hWorker'
    rw [System.applyEffect, hWorker] at hWorker'
    cases hWorker'
  | worker e w w' r hWorker hRun hMove hNext =>
    intro w'' hWorker'
    cases hWorker'
    exact (h w hWorker).step hMove hNext
  | finish w outcome snapshot hWorker hRun hPhase =>
    intro w' hWorker'
    cases hWorker'
  | reload providerSlug record hIdle hWorker hInbox hRecord =>
    intro w' hWorker'
    rw [hWorker] at hWorker'
    cases hWorker'

theorem Inv.activeRequests_length_le_one (h : Inv env s) :
    s.main.activeRequests.entries.length ≤ 1 := by
  have hKeys : s.main.activeRequests.keys.length ≤ 1 := by
    cases h.activity with
    | idle hIdle =>
      rw [OrdMap.keys, show s.main.activeRequests.entries = [] from hIdle]
      exact Nat.zero_le _
    | running w hActive => rw [hActive]; exact Nat.le_refl _
    | finished streamId snapshot progress hActive => rw [hActive]; exact Nat.le_refl _
  simpa [OrdMap.keys] using hKeys

/-! ## Runs -/

/-- In every reachable state: at most one request is active; the inputs that
follow on this thread are given increasing, non-zero ids until the counter
wraps, and these are the ids their outputs and their workers have; a refused
input leaves turns, redo stack and configuration alone, but for the context
window; and while there is a worker, an attaching client is told its stream, and
the turn it writes as far as the session thread has been told itself. -/
theorem live_runs {env : Env} {config : SessionConfig} {slug : Option String}
    {actions : List Action} {s : System} {os : List Output}
    (h : (system env).exec (System.init env config slug) actions = some (s, os)) :
    s.main.activeRequests.entries.length ≤ 1 ∧
    ((actions = [] → s.main.nextStreamId = 1) ∧
      (∀ reloadSlug s' os', (system env).step s (.reload reloadSlug) = some (s', os') →
        s'.main.nextStreamId = 1) ∧
      ∀ inputs, (∀ a ∈ inputs, a.isReload = false) → s.main.nextStreamId = 1 →
        (streamIds env s inputs).length < 2 ^ 64 →
        (streamIds env s inputs).Pairwise (· < ·) ∧ 0 ∉ streamIds env s inputs) ∧
    (∀ a s' os', (system env).step s a = some (s', os') → a.isRun = true →
      HandsOut s s' a os') ∧
    (∀ now text account s' os',
      (system env).step s (.command now (.runInput text account)) = some (s', os') →
      (∃ error, .reply (.failed error) ∈ os') →
      s'.main.turns = s.main.turns ∧ s'.main.redoStack = s.main.redoStack ∧
        s'.main.config =
          { s.main.config with contextWindow := s'.main.config.contextWindow } ∧
        s'.db = s.db ∧ s'.worker = s.worker) ∧
    (∀ w, s.worker = some w →
      ∃ active, s.main.activeRequests.entries = [(w.streamId, active)] ∧
        attachOutputs env s.main =
          [.broadcast (.started w.streamId active.turnId active.estimatedPromptTokens),
            .broadcast (s.main.sessionStateMessage env)] ∧
        ∀ turnId, w.phase.turnId? = some turnId →
          (lastStarted s.inbox).getD active.turnId = turnId) := by
  have hInv := inv_exec h
  have hLive : LiveInv s := exec_invariant_of_transition (P := fun _ s => LiveInv s)
    (fun hInv hLive hStep => liveInv_step hInv hLive hStep)
    (fun w hWorker => by cases hWorker) h
  refine ⟨hInv.activeRequests_length_le_one, ⟨?_, ?_, ?_⟩, ?_, ?_, ?_⟩
  · rintro rfl
    cases h
    exact load_nextStreamId env _ slug _
  · intro reloadSlug s' os' hStep
    exact reload_nextStreamId hStep
  · intro inputs hReload hStart hFew
    exact streamIds_increasing hReload hStart hFew
  · intro a s' os' hStep hRun
    exact step_handsOut hStep hRun
  · intro now text account s' os' hStep hFailed
    obtain ⟨hSettings, hDb, hWorker⟩ := refused_input hStep hFailed
    exact ⟨hSettings.turns, hSettings.redoStack, hSettings.config, hDb, hWorker⟩
  · intro w hWorker
    obtain ⟨hKeys, _, _⟩ := hInv.of_worker hWorker
    rw [OrdMap.keys, List.map_eq_singleton_iff] at hKeys
    obtain ⟨⟨streamId, active⟩, hEntries, rfl⟩ := hKeys
    have hGet : s.main.activeRequests.get? w.streamId = some active := by
      rw [OrdMap.get?_eq_some_iff, hEntries]
      exact List.mem_singleton_self _
    refine ⟨active, hEntries, ?_, ?_⟩
    · rw [attachOutputs, hEntries]
      rfl
    · intro turnId hTurn
      have hAnnounced := (hLive w hWorker).turn turnId hTurn
      rw [announcedTurn, hGet] at hAnnounced
      cases hLast : lastStarted s.inbox with
      | none => rw [hLast] at hAnnounced; exact Option.some.inj hAnnounced
      | some id => rw [hLast] at hAnnounced; exact Option.some.inj hAnnounced

/-- A run whose worker has started its second turn, after the session thread has
taken so many of its messages. -/
def secondTurn (messages : Nat) : List Action :=
  checkpointedRun [.iterate 2 "" 7] messages

/-- Once every message is taken, the attaching client is told turn 1. -/
theorem live_runs_second_turn :
    ∃ s os, (system sampleEnv).exec (System.init sampleEnv (sampleConfig "chained") none)
        (secondTurn 8) = some (s, os) ∧
      ∃ active, s.main.activeRequests.entries = [(1, active)] ∧ active.turnId = 1 := by
  have hCheck : (system sampleEnv).check (System.init sampleEnv (sampleConfig "chained") none)
      (secondTurn 8) (fun s _ => decide (s.inbox = [] ∧
        s.worker.map (fun w => (w.streamId, w.phase.turnId?)) = some (1, some 1))) = true := by
    decide +kernel
  obtain ⟨s, os, hExec, hTest⟩ := Machine.exists_of_check hCheck
  obtain ⟨hInbox, hWorker⟩ := of_decide_eq_true hTest
  obtain ⟨w, hWorker, hPhase⟩ := Option.map_eq_some_iff.mp hWorker
  simp only [Prod.mk.injEq] at hPhase
  obtain ⟨active, hEntries, _, hTurn⟩ := (live_runs hExec).2.2.2.2 w hWorker
  have hTold := hTurn 1 hPhase.2
  rw [hInbox] at hTold
  exact ⟨s, os, hExec, active, hPhase.1 ▸ hEntries, hTold⟩

theorem streamIds_replicate_length (env : Env) (s : System) (now : Int) (text : String)
    (account : Option ResolvedAccount) (n : Nat) :
    (streamIds env s (List.replicate n (.command now (.runInput text account)))).length = n := by
  induction n generalizing s with
  | zero => rfl
  | succ n ih =>
    rw [List.replicate_succ, streamIds]
    simp only [System.step, Action.isRun, if_true, List.length_cons, ih]

/-- The error of a refused request. -/
def Output.refusal : Output → Option String
  | .reply (.failed error) => some error
  | _ => none

/-- The counter wraps to zero, an input that is refused because the session
shuts down changes the context window, and a client that attaches before the
worker's `Started` is taken is told the turn before. -/
theorem live_runs_limits :
    0 ∈ streamIds sampleEnv (System.init sampleEnv (sampleConfig "chained") none)
        (List.replicate (2 ^ 64) (.command 0 (.runInput "" none))) ∧
    (∃ s os, (system sampleEnv).exec (System.init sampleEnv (sampleConfig "chained") none)
        [.command 0 .shutdown, .command 0 (.runInput "hello" sampleAccount)] = some (s, os) ∧
      os.filterMap Output.refusal = ["session is shutting down"] ∧
      (System.init sampleEnv (sampleConfig "chained") none).main.config.contextWindow = none ∧
      s.main.config.contextWindow = some 400) ∧
    ∃ s os, (system sampleEnv).exec (System.init sampleEnv (sampleConfig "chained") none)
        (secondTurn 5) = some (s, os) ∧
      s.worker.map (fun w => w.phase.turnId?) = some (some 1) ∧
      s.main.activeRequests.entries.map (fun e => e.2.turnId) = [0] := by
  refine ⟨?_, ?_, ?_⟩
  · have hNoReload : ∀ a ∈ List.replicate (2 ^ 64) (Action.command 0 (.runInput "" none)),
        a.isReload = false := by
      intro a ha
      rw [List.eq_of_mem_replicate ha]
      rfl
    have hStart : (System.init sampleEnv (sampleConfig "chained") none).main.nextStreamId = 1 :=
      load_nextStreamId _ _ _ _
    have hIds := streamIds_eq sampleEnv 1 hNoReload hStart
    rw [streamIds_replicate_length] at hIds
    rw [hIds]
    apply List.mem_map.mpr
    refine ⟨2 ^ 64, ?_, Nat.mod_self _⟩
    rw [List.mem_range'_1]
    omega
  · have hCheck : (system sampleEnv).check (System.init sampleEnv (sampleConfig "chained") none)
        [.command 0 .shutdown, .command 0 (.runInput "hello" sampleAccount)]
        (fun s os => decide (os.filterMap Output.refusal = ["session is shutting down"] ∧
          (System.init sampleEnv (sampleConfig "chained") none).main.config.contextWindow = none ∧
          s.main.config.contextWindow = some 400)) = true := by
      decide +kernel
    obtain ⟨s, os, hExec, hTest⟩ := Machine.exists_of_check hCheck
    exact ⟨s, os, hExec, of_decide_eq_true hTest⟩
  · have hCheck : (system sampleEnv).check (System.init sampleEnv (sampleConfig "chained") none)
        (secondTurn 5) (fun s _ => decide
          (s.worker.map (fun w => w.phase.turnId?) = some (some 1) ∧
            s.main.activeRequests.entries.map (fun e => e.2.turnId) = [0])) = true := by
      decide +kernel
    obtain ⟨s, os, hExec, hTest⟩ := Machine.exists_of_check hCheck
    exact ⟨s, os, hExec, of_decide_eq_true hTest⟩

end Choreographr.Session
