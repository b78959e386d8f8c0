import Choreographr.Session.Proofs.WorkerRuns

/-!
# The cycle of a run

A run clones the session, works on the clone and is merged back. `Inv` follows
that cycle: an idle session has no worker and nothing in its inbox, a running
one has a worker whose turns extend the session's, and a finished one has the
worker's snapshot as the last message of its inbox. The turns of the session
do not change between the clone and the merge, so the merge puts the
snapshot's turns in their place.

`transition_of_step` combines this with the moves: it tells for every step of a
reachable system which part of the cycle it is and what it does. A law about
runs is then a `Stage`: what holds at rest, while a worker runs, and while its
snapshot waits.
-/

namespace Choreographr.Session

open Lib

variable {env : Env} {s : System} {db : Db} {w : Worker} {os : List Output} {e : Effect}
  {turns : Turns} {slug : Option String}

/-! ## The merge -/

theorem mergeTurns_fst (env : Env) (persisted : Finset Nat) (entries : List (Nat × Turn))
    (turns : Turns) (db : Db) :
    (entries.foldl (mergeTurn env persisted) (turns, db)).1 = turns.insertAll entries := by
  induction entries generalizing turns db with
  | nil => rfl
  | cons e rest ih => exact ih _ _

theorem handleRequestFinished_turns {now : Int} {s : SessionState} {streamId : Nat}
    {snapshot : SessionSnapshot} (h : Extends s.turns snapshot.turns) :
    (handleRequestFinished env now s db streamId snapshot).state.turns = snapshot.turns := by
  have hMerged : (handleRequestFinished env now s db streamId snapshot).state.turns =
      s.turns.insertAll snapshot.turns.entries := mergeTurns_fst _ _ _ _ _
  rw [hMerged]
  exact OrdMap.insertAll_entries_of_keys_subset h.keys_subset

theorem handleRequestFinished_nextTurnId {now : Int} {s : SessionState} {streamId : Nat}
    {snapshot : SessionSnapshot} (hNext : s.nextTurnId = SessionState.nextTurnIdOf s.turns)
    (h : Extends s.turns snapshot.turns) :
    (handleRequestFinished env now s db streamId snapshot).state.nextTurnId =
      SessionState.nextTurnIdOf snapshot.turns := by
  have hLe := h.nextTurnIdOf_le
  rw [← hNext] at hLe
  simp only [handleRequestFinished]
  simp only [SessionState.nextTurnIdOf] at hLe ⊢
  cases hLast : snapshot.turns.lastKey? with
  | none =>
    rw [hLast] at hLe
    exact Nat.le_zero.mp hLe
  | some last =>
    rw [hLast] at hLe
    exact max_eq_right hLe

theorem keys_erase_singleton {α : Type} {m : OrdMap Nat α} {k : Nat} (h : m.keys = [k]) :
    (m.erase k).entries = [] := by
  rw [OrdMap.keys, List.map_eq_singleton_iff] at h
  obtain ⟨e, hEntries, rfl⟩ := h
  simp [OrdMap.erase, OrdMap.filter, hEntries]

/-! ## The invariant -/

/-- A message that leaves the run going. -/
def WorkerMessage.Progress (m : WorkerMessage) : Prop :=
  ∀ streamId snapshot, m ≠ .requestFinished streamId snapshot

/-- Where the session is in the cycle of a run. -/
inductive Activity (s : System) : Prop
  | idle (hIdle : s.Idle) (hWorker : s.worker = none) (hInbox : s.inbox = [])
      (hReadouts : Readouts s.main.config s.main.turns)
  | running (w : Worker) (hActive : s.main.activeRequests.keys = [w.streamId])
      (hWorker : s.worker = some w) (hInbox : ∀ m ∈ s.inbox, m.Progress)
      (hRun : WorkerInv s.main.turns w)
  | finished (streamId : Nat) (snapshot : SessionSnapshot) (progress : List WorkerMessage)
      (hActive : s.main.activeRequests.keys = [streamId]) (hWorker : s.worker = none)
      (hInbox : s.inbox = progress ++ [WorkerMessage.requestFinished streamId snapshot])
      (hProgress : ∀ m ∈ progress, m.Progress) (hSnapshot : SnapshotOk s.main.turns snapshot)

/-- What holds in every reachable state. -/
structure Inv (env : Env) (s : System) : Prop where
  nextTurnId : s.main.nextTurnId = SessionState.nextTurnIdOf s.main.turns
  persistedTurns : s.main.persistedTurns = ∅
  turns : TurnsOk s.main.turns
  rows : RowsOk env s.db
  activity : Activity s

theorem Inv.of_idle (h : Inv env s) (hIdle : s.Idle) :
    s.worker = none ∧ s.inbox = [] ∧ Readouts s.main.config s.main.turns := by
  have hKeys : s.main.activeRequests.keys = [] := by
    rw [OrdMap.keys, show s.main.activeRequests.entries = [] from hIdle]
    rfl
  cases h.activity with
  | idle _ hWorker hInbox hReadouts => exact ⟨hWorker, hInbox, hReadouts⟩
  | running w hActive => rw [hKeys] at hActive; cases hActive
  | finished streamId snapshot progress hActive => rw [hKeys] at hActive; cases hActive

theorem Inv.of_worker (h : Inv env s) (hWorker : s.worker = some w) :
    s.main.activeRequests.keys = [w.streamId] ∧ (∀ m ∈ s.inbox, m.Progress) ∧
      WorkerInv s.main.turns w := by
  cases h.activity with
  | idle _ hNone => rw [hNone] at hWorker; cases hWorker
  | running w' hActive hSome hInbox hRun =>
    rw [hSome] at hWorker
    cases hWorker
    exact ⟨hActive, hInbox, hRun⟩
  | finished _ _ _ _ hNone => rw [hNone] at hWorker; cases hWorker

/-- A snapshot is merged when it is the only message left. -/
theorem Inv.of_finish (h : Inv env s) {streamId : Nat} {snapshot : SessionSnapshot}
    {rest : List WorkerMessage} (hInbox : s.inbox = .requestFinished streamId snapshot :: rest) :
    rest = [] ∧ s.worker = none ∧ s.main.activeRequests.keys = [streamId] ∧
      SnapshotOk s.main.turns snapshot := by
  cases h.activity with
  | idle _ _ hNil => rw [hNil] at hInbox; cases hInbox
  | running w _ _ hProgress =>
    exact absurd rfl (hProgress _ (hInbox ▸ List.mem_cons_self) streamId snapshot)
  | finished streamId' snapshot' progress hActive hWorker hInbox' hProgress hSnapshot =>
    rw [hInbox] at hInbox'
    cases progress with
    | nil =>
      cases hInbox'
      exact ⟨rfl, hWorker, hActive, hSnapshot⟩
    | cons m progress =>
      cases hInbox'
      exact absurd rfl (hProgress _ List.mem_cons_self streamId snapshot)

/-! ## Transitions -/

/-- A step of a system that satisfies `Inv`, with its place in the cycle of a
run. -/
inductive Transition (env : Env) (s : System) : Action → System → List Output → Prop
  | quiet {now : Int} {c : Command} (e : Effect) (targets : List Nat) (shutdown : Bool)
      (hQuiet : QuietEffect s.main s.db e) :
      Transition env s (.command now c)
        { (s.applyEffect e).signalCancel targets with shutdownRequested := shutdown } e.outputs
  | accept {now : Int} {c : Command} (e : Effect) (w : Worker) (hWorker : s.worker = none)
      (hInbox : s.inbox = []) (hReadouts : Readouts s.main.config s.main.turns)
      (hAccept : AcceptEffect s.main s.db e w) :
      Transition env s (.command now c) { s.applyEffect e with worker := some w } e.outputs
  | undo {now : Int} (e : Effect) (target : Nat) (hIdle : s.Idle) (hWorker : s.worker = none)
      (hInbox : s.inbox = []) (hReadouts : Readouts s.main.config s.main.turns)
      (hUndo : UndoEffect env s.main s.db e target) :
      Transition env s (.command now .undo) (s.applyEffect e) e.outputs
  | redo {now : Int} (e : Effect) (ids : List Nat) (hIdle : s.Idle) (hWorker : s.worker = none)
      (hInbox : s.inbox = []) (hReadouts : Readouts s.main.config s.main.turns)
      (hRedo : RedoEffect env s.main s.db e ids) :
      Transition env s (.command now .redo) (s.applyEffect e) e.outputs
  | progress (now : Int) (m : WorkerMessage) (rest : List WorkerMessage)
      (hInbox : s.inbox = m :: rest) (hProgress : m.Progress) :
      Transition env s (.deliver now)
        { s.applyEffect (handleWorkerMessage env now s.main s.db m) with inbox := rest }
        (handleWorkerMessage env now s.main s.db m).outputs
  | merge (now : Int) (streamId : Nat) (snapshot : SessionSnapshot)
      (hInbox : s.inbox = [.requestFinished streamId snapshot]) (hWorker : s.worker = none)
      (hActive : s.main.activeRequests.keys = [streamId])
      (hSnapshot : SnapshotOk s.main.turns snapshot) :
      Transition env s (.deliver now)
        { s.applyEffect (handleRequestFinished env now s.main s.db streamId snapshot) with
          inbox := [] }
        (handleRequestFinished env now s.main s.db streamId snapshot).outputs
  | worker (e : WorkerEvent) (w w' : Worker) (r : WorkerResult) (hWorker : s.worker = some w)
      (hRun : WorkerInv s.main.turns w) (hMove : w.Move env s.db s.server e r)
      (hNext : r.worker = some w') :
      Transition env s (.worker e)
        { s with worker := some w', db := r.db, server := r.server, inbox := s.inbox ++ r.sent }
        r.trace
  | finish (w : Worker) (outcome : RequestOutcome) (snapshot : SessionSnapshot)
      (hWorker : s.worker = some w) (hRun : WorkerInv s.main.turns w)
      (hPhase : w.phase = .returning outcome snapshot) :
      Transition env s (.worker .finish)
        { s with
          worker := none
          inbox := s.inbox ++ (w.outcomeMessages outcome ++ [.requestFinished w.streamId snapshot]) }
        (if w.isChild then [.childReply (.ok (w.childResult outcome))] else [])
  | reload (providerSlug : Option String) (record : SessionRecord) (hIdle : s.Idle)
      (hWorker : s.worker = none) (hInbox : s.inbox = [])
      (hRecord : (s.db.writeSession env.sessionId s.main.toRecord).sessions.get? env.sessionId =
        some record) :
      Transition env s (.reload providerSlug)
        { s with
          main := SessionState.load env record providerSlug
            (OrdMap.empty.insertAll (s.db.readTurns env.sessionId))
          db := s.db.writeSession env.sessionId s.main.toRecord
          shutdownRequested := false }
        [.updateMetadata (SessionState.load env record providerSlug
          (OrdMap.empty.insertAll (s.db.readTurns env.sessionId))).toMetadata]

theorem transition_of_step {s' : System} {a : Action} (h : Inv env s)
    (hStep : (system env).step s a = some (s', os)) : Transition env s a s' os := by
  cases move_of_step hStep with
  | quiet e targets shutdown hQuiet => exact .quiet e targets shutdown hQuiet
  | accept e w hAccept =>
    obtain ⟨hWorker, hInbox, hReadouts⟩ := h.of_idle hAccept.idle
    exact .accept e w hWorker hInbox hReadouts hAccept
  | undo e target hIdle hUndo =>
    obtain ⟨hWorker, hInbox, hReadouts⟩ := h.of_idle hIdle
    exact .undo e target hIdle hWorker hInbox hReadouts hUndo
  | redo e ids hIdle hRedo =>
    obtain ⟨hWorker, hInbox, hReadouts⟩ := h.of_idle hIdle
    exact .redo e ids hIdle hWorker hInbox hReadouts hRedo
  | deliver now m rest hInbox =>
    by_cases hProgress : m.Progress
    · exact .progress now m rest hInbox hProgress
    · obtain ⟨streamId, snapshot, rfl⟩ : ∃ streamId snapshot,
          m = .requestFinished streamId snapshot := by
        simpa [WorkerMessage.Progress] using hProgress
      obtain ⟨rfl, hWorker, hActive, hSnapshot⟩ := h.of_finish hInbox
      exact .merge now streamId snapshot hInbox hWorker hActive hSnapshot
  | worker e w r hWorker hMove =>
    obtain ⟨_, _, hRun⟩ := h.of_worker hWorker
    cases hNext : r.worker with
    | some w' => exact .worker e w w' r hWorker hRun hMove hNext
    | none =>
      cases hMove with
      | finish outcome snapshot hPhase => exact .finish w outcome snapshot hWorker hRun hPhase
      | _ => cases hNext
  | reload providerSlug record hIdle hRecord =>
    obtain ⟨hWorker, hInbox, _⟩ := h.of_idle hIdle
    exact .reload providerSlug record hIdle hWorker hInbox hRecord

/-! ## Every reachable state -/

/-- A message that leaves the run going changes the status, the live usage and
what late subscribers are told, and nothing else. -/
theorem handleWorkerMessage_progress (env : Env) (now : Int) (s : SessionState) (db : Db)
    {m : WorkerMessage} (h : m.Progress) :
    ∃ status usage prompt requests,
      requests.keys = s.activeRequests.keys ∧
      (handleWorkerMessage env now s db m).state =
        { s with
          config :=
            { s.config with
              status := status, accumulatedUsage := usage, lastPromptTokens := prompt }
          activeRequests := requests } ∧
      (handleWorkerMessage env now s db m).db = db := by
  cases m with
  | broadcast event =>
    refine ⟨s.config.status, s.config.accumulatedUsage, s.config.lastPromptTokens,
      (trackLiveStarted s event).activeRequests, ?_, ?_, rfl⟩
    · cases event <;> simp [trackLiveStarted]
    · simp only [handleWorkerMessage, handleBroadcast]
      cases event <;> rfl
  | statusChanged status =>
    exact ⟨status, s.config.accumulatedUsage, s.config.lastPromptTokens, s.activeRequests, rfl,
      rfl, rfl⟩
  | syncAccumulatedUsage usage prompt =>
    exact ⟨s.config.status, _, _, s.activeRequests, rfl, rfl, rfl⟩
  | requestFinished streamId snapshot => exact absurd rfl (h streamId snapshot)

theorem message_outputs_calm (env : Env) (now : Int) (s : SessionState) (db : Db)
    (m : WorkerMessage) : ∀ o ∈ (handleWorkerMessage env now s db m).outputs, o.Calm := by
  apply calm_of_all_isCalm
  cases m <;> rfl

/-- The progress messages of a worker step. -/
theorem Worker.Move.sent_progress {server : Server} {w' : Worker} {e : WorkerEvent}
    {r : WorkerResult} (h : w.Move env db server e r) (hNext : r.worker = some w') :
    ∀ m ∈ r.sent, m.Progress := by
  have hAppended : ∀ (s : SessionState) (id : Nat), ∀ m ∈ s.turnAppended id, m.Progress := by
    intro s id m hm
    rw [SessionState.turnAppended] at hm
    split at hm
    · rw [List.mem_singleton] at hm
      subst hm
      intro streamId snapshot hEq
      cases hEq
    · cases hm
  intro m hm
  cases h with
  | beginTurn now systemPrompt estimate hStart hBound =>
    rcases List.mem_append.mp hm with hm | hm
    · exact hAppended _ _ m hm
    · rw [List.mem_cons, List.mem_singleton] at hm
      rcases hm with rfl | rfl <;> intro streamId snapshot hEq <;> cases hEq
  | status status =>
    rw [List.mem_singleton] at hm
    subst hm
    intro streamId snapshot hEq
    cases hEq
  | finalText turnId request r server' hPhase hServer =>
    rw [List.mem_singleton] at hm
    subst hm
    intro streamId snapshot hEq
    cases hEq
  | toolUse turnId request r server' hPhase hServer =>
    rcases List.mem_cons.mp hm with rfl | hm
    · intro streamId snapshot hEq
      cases hEq
    · exact hAppended _ _ m hm
  | finalized turnId next w'' hPhase hBetween => exact hAppended _ _ m hm
  | toolsDone writeOk turnId b w'' hPhase hDone written hWritten hBetween =>
    dsimp only at hm
    split at hm
    · exact hAppended _ _ m hm
    · cases hm
  | finish outcome snapshot hPhase => cases hNext
  | _ => cases hm

theorem outcomeMessages_progress (w : Worker) (outcome : RequestOutcome) :
    ∀ m ∈ w.outcomeMessages outcome, m.Progress := by
  intro m hm
  cases outcome with
  | done =>
    rw [Worker.outcomeMessages, List.mem_singleton] at hm
    subst hm
    intro streamId snapshot hEq
    cases hEq
  | failed error =>
    rw [Worker.outcomeMessages, List.mem_singleton] at hm
    subst hm
    intro streamId snapshot hEq
    cases hEq
  | cancelled => cases hm

theorem turnsOk_hideFrom (h : TurnsOk turns) (target : Nat) : TurnsOk (hideFrom turns target) := by
  refine turnsOk_mapVal h ?_
  intro id t ht
  split
  · exact ht.of_shape rfl rfl
  · exact ht

theorem turnsOk_showTurns (h : TurnsOk turns) (ids : List Nat) : TurnsOk (showTurns turns ids) := by
  refine turnsOk_mapVal h ?_
  intro id t ht
  split
  · exact ht.of_shape rfl rfl
  · exact ht

theorem mem_batchFrom_iff {target tid : Nat} :
    tid ∈ batchFrom turns target ↔
      ∃ t, turns.get? tid = some t ∧ target ≤ tid ∧ t.undone = false := by
  simp only [batchFrom, List.mem_map, List.mem_filter, Bool.and_eq_true, decide_eq_true_eq,
    Bool.not_eq_true', OrdMap.get?_eq_some_iff]
  constructor
  · rintro ⟨⟨tid, t⟩, ⟨hMem, hLe, hLive⟩, rfl⟩
    exact ⟨t, hMem, hLe, hLive⟩
  · rintro ⟨t, hMem, hLe, hLive⟩
    exact ⟨(tid, t), ⟨hMem, hLe, hLive⟩, rfl⟩

theorem get?_hideFrom_of_notMem {target tid : Nat} (h : tid ∉ batchFrom turns target) :
    (hideFrom turns target).get? tid = turns.get? tid := by
  rw [hideFrom, OrdMap.get?_mapVal]
  cases hGet : turns.get? tid with
  | none => rfl
  | some t =>
    rw [Option.map_some]
    congr 1
    rw [if_neg]
    intro hHidden
    simp only [Bool.and_eq_true, decide_eq_true_eq, Bool.not_eq_true'] at hHidden
    exact h (mem_batchFrom_iff.mpr ⟨t, hGet, hHidden⟩)

theorem get?_showTurns_of_notMem {ids : List Nat} {tid : Nat} (h : tid ∉ ids) :
    (showTurns turns ids).get? tid = turns.get? tid := by
  rw [showTurns, OrdMap.get?_mapVal]
  cases turns.get? tid with
  | none => rfl
  | some t => simp [h]

theorem reconstruct_mapVal (turns : Turns) {f : Nat → Turn → Turn}
    (hf : ∀ id t, (f id t).tokenUsage = t.tokenUsage) :
    reconstructAccumulatedUsage (turns.mapVal f) = reconstructAccumulatedUsage turns := by
  simp only [reconstructAccumulatedUsage, OrdMap.values, OrdMap.mapVal, List.map_map,
    List.foldl_map, Function.comp_apply, hf]

theorem reconstruct_hideFrom (turns : Turns) (target : Nat) :
    reconstructAccumulatedUsage (hideFrom turns target) = reconstructAccumulatedUsage turns := by
  apply reconstruct_mapVal
  intro id t
  split <;> rfl

theorem reconstruct_showTurns (turns : Turns) (ids : List Nat) :
    reconstructAccumulatedUsage (showTurns turns ids) = reconstructAccumulatedUsage turns := by
  apply reconstruct_mapVal
  intro id t
  split <;> rfl

theorem SameHistory.readouts {s s' : SessionState} (h : SameHistory s s')
    (hReadouts : Readouts s.config s.turns) : Readouts s'.config s'.turns := by
  rw [Readouts, h.turns, h.accumulatedUsage, h.lastPromptTokens]
  exact hReadouts

theorem workerInv_spawn {s : SessionState} {streamId : Nat} {slug model : String}
    {userText : Option String} {isChild : Bool} (hTurns : TurnsOk s.turns)
    (hPersisted : s.persistedTurns = ∅) (hReadouts : Readouts s.config s.turns) :
    WorkerInv s.turns (Worker.spawn streamId s slug model userText isChild) where
  start_turns := rfl
  start_persisted := hPersisted
  start := ⟨hTurns, Extends.refl _, hReadouts⟩
  session := ⟨hTurns, Extends.refl _, hReadouts⟩
  nextTurnId := rfl
  phase := rfl

theorem Worker.Move.streamId {server : Server} {w' : Worker} {e : WorkerEvent} {r : WorkerResult}
    (h : w.Move env db server e r) (hNext : r.worker = some w') : w'.streamId = w.streamId := by
  cases h with
  | stop w'' hBetween =>
    cases hNext
    exact hBetween.streamId
  | finalized turnId next w'' hPhase hBetween =>
    cases hNext
    exact hBetween.streamId
  | toolsDone writeOk turnId b w'' hPhase hDone written hWritten hBetween =>
    cases hNext
    exact hBetween.streamId
  | _ =>
    cases hNext
    try rfl

theorem WorkerInv.snapshotOk {base : Turns} (h : WorkerInv base w) {outcome : RequestOutcome}
    {snapshot : SessionSnapshot} (hPhase : w.phase = .returning outcome snapshot) :
    SnapshotOk base snapshot := by
  have hPhaseInv := h.phase
  rw [hPhase] at hPhaseInv
  rcases hPhaseInv with rfl | rfl
  · exact h.session
  · exact h.start

theorem Activity.quiet (targets : List Nat) (shutdown : Bool) (h : Activity s)
    (hQuiet : QuietEffect s.main s.db e) :
    Activity { (s.applyEffect e).signalCancel targets with shutdownRequested := shutdown } := by
  have hTurns := hQuiet.history.turns
  have hActiveEq := hQuiet.activeRequests
  cases h with
  | idle hIdle hWorker hInbox hReadouts =>
    refine .idle ?_ ?_ hInbox (hQuiet.history.readouts hReadouts)
    · exact (congrArg OrdMap.entries hActiveEq).trans hIdle
    · simp [System.signalCancel, System.applyEffect, hWorker]
  | running w hActive hWorker hInbox hRun =>
    refine .running { w with cancels := w.cancels + targets.count w.streamId } ?_ ?_ hInbox ?_
    · exact (congrArg OrdMap.keys hActiveEq).trans hActive
    · simp [System.signalCancel, System.applyEffect, hWorker]
    · simp only [System.signalCancel, System.applyEffect, hTurns]
      exact hRun.same_turns rfl rfl rfl hRun.session.readouts hRun.phase
  | finished streamId snapshot progress hActive hWorker hInbox hProgress hSnapshot =>
    refine .finished streamId snapshot progress ?_ ?_ hInbox hProgress ?_
    · exact (congrArg OrdMap.keys hActiveEq).trans hActive
    · simp [System.signalCancel, System.applyEffect, hWorker]
    · simp only [System.signalCancel, System.applyEffect, hTurns]
      exact hSnapshot

theorem Activity.progress {now : Int} {m : WorkerMessage} {rest : List WorkerMessage}
    (h : Activity s) (hInbox : s.inbox = m :: rest) (hProgress : m.Progress) :
    Activity { s.applyEffect (handleWorkerMessage env now s.main s.db m) with inbox := rest } := by
  obtain ⟨status, usage, prompt, requests, hKeys, hState, _⟩ :=
    handleWorkerMessage_progress env now s.main s.db hProgress
  cases h with
  | idle _ _ hNil =>
    rw [hInbox] at hNil
    cases hNil
  | running w hActive hWorker hMessages hRun =>
    rw [hInbox] at hMessages
    refine .running w ?_ hWorker (fun m hm => hMessages m (List.mem_cons_of_mem _ hm)) ?_
    · simp only [System.applyEffect, hState]
      exact hKeys.trans hActive
    · simp only [System.applyEffect, hState]
      exact hRun
  | finished streamId snapshot progress hActive hWorker hInbox' hMessages hSnapshot =>
    rw [hInbox] at hInbox'
    cases progress with
    | nil =>
      cases hInbox'
      exact absurd rfl (hProgress streamId snapshot)
    | cons m' progress =>
      cases hInbox'
      refine .finished streamId snapshot progress ?_ hWorker rfl
        (fun m hm => hMessages m (List.mem_cons_of_mem _ hm)) ?_
      · simp only [System.applyEffect, hState]
        exact hKeys.trans hActive
      · simp only [System.applyEffect, hState]
        exact hSnapshot

theorem refreshContextWindow_fresh (env : Env) (s : SessionState) :
    (s.refreshContextWindow env).1.activeRequests = s.activeRequests ∧
      (s.refreshContextWindow env).1.persistedTurns = s.persistedTurns := by
  obtain ⟨hHistory, hActive⟩ := refreshContextWindow_sameHistory env s
  exact ⟨hActive, hHistory.persistedTurns⟩

/-- A session that was just loaded is idle and its readouts follow its turns. -/
theorem inv_load {record : SessionRecord} (hMain : s.main = SessionState.load env record slug turns)
    (hWorker : s.worker = none) (hInbox : s.inbox = []) (hTurns : TurnsOk turns)
    (hRows : RowsOk env s.db) : Inv env s := by
  have hTurnsEq : s.main.turns = turns := by
    rw [hMain]
    rfl
  refine ⟨?_, ?_, ?_, hRows, .idle ?_ hWorker hInbox ?_⟩
  · rw [hMain]
    rfl
  · rw [hMain, SessionState.load]
    exact (refreshContextWindow_fresh env _).2
  · rw [hTurnsEq]
    exact hTurns
  · rw [System.Idle, hMain, SessionState.load]
    exact congrArg OrdMap.entries (refreshContextWindow_fresh env _).1
  · rw [hTurnsEq, hMain]
    exact ⟨rfl, rfl⟩

theorem inv_init (env : Env) (config : SessionConfig) (slug : Option String) :
    Inv env (System.init env config slug) := by
  refine inv_load rfl rfl rfl ?_ ?_
  · intro e he
    cases he
  · intro tid row hRow
    cases hRow

theorem inv_step {s' : System} {a : Action} (h : Inv env s)
    (hStep : (system env).step s a = some (s', os)) : Inv env s' := by
  cases transition_of_step h hStep with
  | quiet e targets shutdown hQuiet =>
    refine ⟨?_, ?_, ?_, h.rows.of_turns_eq hQuiet.rows.1, h.activity.quiet targets shutdown hQuiet⟩
    · exact hQuiet.history.nextTurnId.trans (h.nextTurnId.trans (by rw [← hQuiet.history.turns]; rfl))
    · exact hQuiet.history.persistedTurns.trans h.persistedTurns
    · exact (show e.state.turns = _ from hQuiet.history.turns) ▸ h.turns
  | accept e w hWorker hInbox hReadouts hAccept =>
    have hTurns := hAccept.history.turns
    have hOk : TurnsOk e.state.turns := hTurns ▸ h.turns
    have hPersisted := hAccept.history.persistedTurns.trans h.persistedTurns
    refine ⟨?_, hPersisted, hOk, ?_, .running w ?_ rfl ?_ ?_⟩
    · exact hAccept.history.nextTurnId.trans (h.nextTurnId.trans (by rw [← hTurns]; rfl))
    · simp only [System.applyEffect, hAccept.db_eq]
      exact h.rows
    · simp [System.applyEffect, OrdMap.keys, hAccept.activeRequests]
    · simp [System.applyEffect, hInbox]
    · rw [hAccept.spawned]
      exact workerInv_spawn hOk hPersisted (hAccept.history.readouts hReadouts)
  | undo e target hIdle hWorker hInbox hReadouts hUndo =>
    have hTurns : TurnsOk e.state.turns := hUndo.turns ▸ turnsOk_hideFrom h.turns target
    obtain ⟨db', hRows, hDb⟩ := hUndo.db_eq
    refine ⟨?_, ?_, hTurns, ?_, .idle ?_ hWorker hInbox ?_⟩
    · simp only [System.applyEffect, hUndo.flagsOnly.nextTurnId, h.nextTurnId, hUndo.turns, hideFrom,
        nextTurnIdOf_mapVal]
    · exact hUndo.flagsOnly.persistedTurns.trans h.persistedTurns
    · simp only [System.applyEffect, hDb]
      refine (h.rows.of_turns_eq hRows.1).writeTurns ?_
      intro e he
      exact hTurns e (List.mem_filter.mp he).1
    · exact (congrArg OrdMap.entries hUndo.flagsOnly.activeRequests).trans hIdle
    · refine ⟨?_, hUndo.lastPromptTokens⟩
      simp only [System.applyEffect, hUndo.flagsOnly.accumulatedUsage, hUndo.turns,
        reconstruct_hideFrom, hReadouts.1]
  | redo e ids hIdle hWorker hInbox hReadouts hRedo =>
    have hTurns : TurnsOk e.state.turns := hRedo.turns ▸ turnsOk_showTurns h.turns ids
    refine ⟨?_, ?_, hTurns, ?_, .idle ?_ hWorker hInbox ?_⟩
    · simp only [System.applyEffect, hRedo.flagsOnly.nextTurnId, h.nextTurnId, hRedo.turns,
        showTurns, nextTurnIdOf_mapVal]
    · exact hRedo.flagsOnly.persistedTurns.trans h.persistedTurns
    · simp only [System.applyEffect, hRedo.db_eq]
      refine h.rows.writeTurns ?_
      intro e he
      exact hTurns e (List.mem_filter.mp he).1
    · exact (congrArg OrdMap.entries hRedo.flagsOnly.activeRequests).trans hIdle
    · refine ⟨?_, hRedo.lastPromptTokens⟩
      simp only [System.applyEffect, hRedo.flagsOnly.accumulatedUsage, hRedo.turns,
        reconstruct_showTurns, hReadouts.1]
  | progress now m rest hInbox hProgress =>
    obtain ⟨status, usage, prompt, requests, hKeys, hState, hDb⟩ :=
      handleWorkerMessage_progress env now s.main s.db hProgress
    refine ⟨?_, ?_, ?_, ?_, h.activity.progress hInbox hProgress⟩
    · simp only [System.applyEffect, hState]
      exact h.nextTurnId
    · simp only [System.applyEffect, hState]
      exact h.persistedTurns
    · simp only [System.applyEffect, hState]
      exact h.turns
    · simp only [System.applyEffect, hDb]
      exact h.rows
  | merge now streamId snapshot hInbox hWorker hActive hSnapshot =>
    have hTurns : (handleRequestFinished env now s.main s.db streamId snapshot).state.turns =
        snapshot.turns := handleRequestFinished_turns hSnapshot.extended
    refine ⟨?_, h.persistedTurns, ?_, ?_, .idle (keys_erase_singleton hActive) hWorker rfl ?_⟩
    · simp only [System.applyEffect, hTurns]
      exact handleRequestFinished_nextTurnId h.nextTurnId hSnapshot.extended
    · simp only [System.applyEffect, hTurns]
      exact hSnapshot.turns
    · simp only [System.applyEffect, handleRequestFinished]
      refine RowsOk.mergeTurns ?_ hSnapshot.turns _
      exact h.rows.of_turns_eq rfl
    · simp only [System.applyEffect, hTurns]
      exact hSnapshot.readouts
  | worker e w w' r hWorker hRun hMove hNext =>
    obtain ⟨hActive, hMessages, _⟩ := h.of_worker hWorker
    have hStream : w'.streamId = w.streamId := hMove.streamId hNext
    refine ⟨h.nextTurnId, h.persistedTurns, h.turns, hRun.rows h.rows hMove,
      .running w' (hStream ▸ hActive) rfl ?_ (hRun.step hMove hNext)⟩
    intro m hm
    rcases List.mem_append.mp hm with hm | hm
    · exact hMessages m hm
    · exact hMove.sent_progress hNext m hm
  | finish w outcome snapshot hWorker hRun hPhase =>
    obtain ⟨hActive, hMessages, _⟩ := h.of_worker hWorker
    refine ⟨h.nextTurnId, h.persistedTurns, h.turns, h.rows,
      .finished w.streamId snapshot (s.inbox ++ w.outcomeMessages outcome) hActive rfl
        (by simp) ?_ (hRun.snapshotOk hPhase)⟩
    intro m hm
    rcases List.mem_append.mp hm with hm | hm
    · exact hMessages m hm
    · exact outcomeMessages_progress w outcome m hm
  | reload providerSlug record hIdle hWorker hInbox hRecord =>
    exact inv_load rfl hWorker hInbox h.rows.load (h.rows.of_turns_eq rfl)

theorem inv_exec {config : SessionConfig} {actions : List Action}
    (h : (system env).exec (System.init env config slug) actions = some (s, os)) : Inv env s :=
  Machine.exec_state_invariant inv_step (inv_init env config slug) h

/-- A property of the outputs so far and the state that every transition
keeps holds along every run. -/
theorem exec_invariant_of_transition {P : List Output → System → Prop}
    (hStep : ∀ {os s a s' os'}, Inv env s → P os s → Transition env s a s' os' → P (os ++ os') s')
    {config : SessionConfig} {actions : List Action} (hInit : P [] (System.init env config slug))
    (h : (system env).exec (System.init env config slug) actions = some (s, os)) : P os s := by
  have hBoth := Machine.exec_invariant (M := system env)
    (P := fun os s => Inv env s ∧ P os s)
    (fun hInv hMove => ⟨inv_step hInv.1 hMove,
      hStep hInv.1 hInv.2 (transition_of_step hInv.1 hMove)⟩)
    ⟨inv_init env config slug, hInit⟩ h
  exact hBoth.2

theorem guarded_invariant_of_transition {P : List Output → System → Prop}
    {ok : System → Action → Prop} [∀ s a, Decidable (ok s a)]
    (hStep : ∀ {os s a s' os'}, Inv env s → P os s → ok s a → Transition env s a s' os' →
      P (os ++ os') s') {config : SessionConfig} {actions : List Action}
    (hInit : P [] (System.init env config slug))
    (h : ((system env).guard ok).exec (System.init env config slug) actions = some (s, os)) :
    P os s := by
  have hBoth := Machine.exec_invariant (M := (system env).guard ok)
    (P := fun os s => Inv env s ∧ P os s)
    (fun hInv hMove => by
      obtain ⟨hOk, hMove⟩ := Machine.guard_step_eq_some.mp hMove
      exact ⟨inv_step hInv.1 hMove, hStep hInv.1 hInv.2 hOk (transition_of_step hInv.1 hMove)⟩)
    ⟨inv_init env config slug, hInit⟩ h
  exact hBoth.2

/-! ## Stages -/

/-- A property that depends on where the session is in the cycle of a run. -/
def Stage (rest : Prop) (running : Worker → Prop) (finished : SessionSnapshot → Prop)
    (s : System) : Prop :=
  match s.worker with
  | some w => running w
  | none =>
      match s.inbox.getLast? with
      | some (.requestFinished _ snapshot) => finished snapshot
      | _ => rest

namespace Stage

variable {rest rest' : Prop} {running running' : Worker → Prop}
  {finished finished' : SessionSnapshot → Prop}

theorem rest_iff (hWorker : s.worker = none) (hInbox : s.inbox = []) :
    Stage rest running finished s ↔ rest := by
  simp [Stage, hWorker, hInbox]

theorem running_iff (hWorker : s.worker = some w) : Stage rest running finished s ↔ running w := by
  simp [Stage, hWorker]

theorem finished_iff {streamId : Nat} {snapshot : SessionSnapshot}
    {progress : List WorkerMessage} (hWorker : s.worker = none)
    (hInbox : s.inbox = progress ++ [WorkerMessage.requestFinished streamId snapshot]) :
    Stage rest running finished s ↔ finished snapshot := by
  simp [Stage, hWorker, hInbox]

theorem merging_iff {streamId : Nat} {snapshot : SessionSnapshot} (hWorker : s.worker = none)
    (hInbox : s.inbox = [.requestFinished streamId snapshot]) :
    Stage rest running finished s ↔ finished snapshot := by
  simp [Stage, hWorker, hInbox]

theorem merged (hWorker : s.worker = none) (h : rest) :
    Stage rest running finished { s.applyEffect e with inbox := [] } :=
  (rest_iff (s := { s.applyEffect e with inbox := [] }) hWorker rfl).mpr h

theorem handed {messages : List WorkerMessage} {streamId : Nat} {snapshot : SessionSnapshot}
    (h : finished snapshot) :
    Stage rest running finished
      { s with
        worker := none
        inbox := s.inbox ++ (messages ++ [.requestFinished streamId snapshot]) } := by
  exact (finished_iff rfl (List.append_assoc ..).symm).mpr h

/-- A quiet command does not move the session to another stage. -/
theorem quiet {targets : List Nat} {shutdown : Bool} (h : Stage rest running finished s)
    (hRest : rest → rest')
    (hRunning : ∀ w cancels, running w → running' { w with cancels := cancels })
    (hFinished : ∀ snapshot, finished snapshot → finished' snapshot) :
    Stage rest' running' finished'
      { (s.applyEffect e).signalCancel targets with shutdownRequested := shutdown } := by
  simp only [Stage, System.signalCancel, System.applyEffect] at h ⊢
  cases hWorker : s.worker with
  | some w =>
    rw [hWorker] at h
    exact hRunning w _ h
  | none =>
    simp only [hWorker, Option.map_none] at h ⊢
    split at h
    · exact hFinished _ h
    · exact hRest h

/-- Neither does a message that leaves the run going. -/
theorem progress {m : WorkerMessage} {messages : List WorkerMessage}
    (hInbox : s.inbox = m :: messages) (hProgress : m.Progress) (h : Stage rest running finished s)
    (hRest : rest → rest') (hRunning : ∀ w, running w → running' w)
    (hFinished : ∀ snapshot, finished snapshot → finished' snapshot) :
    Stage rest' running' finished' { s.applyEffect e with inbox := messages } := by
  simp only [Stage, System.applyEffect, hInbox] at h ⊢
  cases hWorker : s.worker with
  | some w =>
    rw [hWorker] at h
    exact hRunning w h
  | none =>
    simp only [hWorker] at h ⊢
    cases messages with
    | nil =>
      cases m with
      | requestFinished streamId snapshot => exact absurd rfl (hProgress streamId snapshot)
      | _ => exact hRest h
    | cons m' messages =>
      rw [List.getLast?_cons_cons] at h
      split at h
      · exact hFinished _ h
      · exact hRest h

end Stage

/-! ## A small environment

The concrete runs of this development use one session whose provider has one
model that chains responses, one that does not, and windows of its own for
each. -/

def sampleEnv : Env where
  sessionId := 1
  sessionId_lt := by decide
  maxTurns := 0
  modelReasoningPassback _ model := if model = "chained" then .responseId else .allTurns
  echoRequirePresent _ _ := false
  modelSupportsVision _ _ := true
  lookupContextWindow _ model := some (if model = "chained" then 400 else 200)
  availableEffortLevels _ _ := ["low", "high"]
  graphemeCount text := text.length
  sanitizeToolOutput text := text
  describeInvocation name _ := name
  protectedGroups := ∅

/-- The account of the concrete runs. -/
def sampleAccount : Option ResolvedAccount := some ⟨"openai", .ok ([], none)⟩

/-- A session with an account and the given model. -/
def sampleConfig (model : String) : SessionConfig where
  selectedModel := some model
  accountName := some "work"
  workingDir := some "/repo"

/-- A whole run: the input, the steps of its worker, and as many messages as
the session then takes. -/
def sampleRun (text : String) (events : List WorkerEvent) (messages : Nat) : List Action :=
  .command 0 (.runInput text sampleAccount) ::
    (events.map Action.worker ++ List.replicate messages (.deliver 9))

/-- A reply that calls one tool. -/
def sampleToolUse (usage : Option TokenUsage) : ToolUse where
  toolCalls := [⟨"call_1", "shell", "\x7b\x7d", none⟩]
  usage := usage

/-- The steps of an iteration that calls one tool and checkpoints its turn. -/
def checkpointedIteration : List WorkerEvent :=
  [.iterate 1 "" 0,
    .toolUse (sampleToolUse none),
    .tool .dispatch,
    .tool (.handle 0 (.finished { content := "README.md" }) none),
    .toolsDone true]

end Choreographr.Session
