import Choreographr.Daemon.System
import Choreographr.Lib.Counting

/-!
# What a session thread keeps

A session thread runs at most one request. Its worker is at work, or has sent the
message that ends the request (`RequestOk`). A thread that was told to shut down
stays in its loop only while a request is active, and a thread that has left its
loop has none (`Ok`).
-/

namespace Choreographr.Daemon

open Session Lib

/-- The request that a command ends. -/
def SessionCommand.finished? : SessionCommand → Option Nat
  | .requestFinished streamId => some streamId
  | _ => none

/-- The thread is going to send its snapshot to the client. -/
def ThreadEffect.snapshots (client : ClientId) : ThreadEffect → Bool
  | .sendState c => c = client
  | _ => false

namespace Thread

variable {t t' : Thread}

/-- The exit of the thread has not been reported yet. -/
def live (t : Thread) : Bool :=
  match t.phase with
  | .running | .persisting _ | .reporting => true
  | .ending | .finished => false

/-- The requests whose end is in the queue. -/
def endings (t : Thread) : List Nat := t.queue.filterMap SessionCommand.finished?

/-- A snapshot goes to a subscriber of a thread that is in its loop, before anything else
is sent. -/
def SnapshotOk (t : Thread) : Prop :=
  ∀ c, .sendState c ∈ t.effects →
    t.phase = .running ∧ c ∈ t.subscribers ∧ ∀ number, .broadcast number ∉ t.effects

/-- There is no request, or its worker is at work, or its end is in the queue. -/
inductive RequestOk (t : Thread) : Prop where
  | none (hActive : t.activeRequests = []) (hWorkers : t.workers = []) (hEnds : t.endings = [])
  | working (streamId : Nat) (hActive : t.activeRequests = [streamId])
      (hWorkers : t.workers = [streamId]) (hEnds : t.endings = [])
  | ended (streamId : Nat) (hActive : t.activeRequests = [streamId]) (hWorkers : t.workers = [])
      (hEnds : t.endings = [streamId])

structure Ok (t : Thread) : Prop where
  request : t.phase ≠ .finished → t.RequestOk
  stopped : t.phase ≠ .running → t.phase ≠ .finished → t.activeRequests = []
  shutdown : t.phase = .running → t.shutdownRequested = true → t.activeRequests ≠ []
  /-- The thread reports its exit after everything else. -/
  reported : t.phase ≠ .running → (∀ r, t.phase ≠ .persisting r) → t.effects = []
  finished : t.phase = .finished → t.queue = [] ∧ t.workers = []
  snapshot : t.SnapshotOk

/-- The thread has been told to shut down. -/
def ShuttingDown (t : Thread) : Prop :=
  .shutdown ∈ t.queue ∨ t.shutdownRequested = true ∨ t.phase ≠ .running

/-- A change that the life of the session does not see. -/
structure Same (t t' : Thread) : Prop where
  ok : t'.Ok
  sessionId : t'.sessionId = t.sessionId
  live : t'.live = t.live
  shuttingDown : t.ShuttingDown → t'.ShuttingDown

theorem live_of_running (h : t.phase = .running) : t.live = true := by
  unfold live
  rw [h]

theorem Ok.live_of_effect (h : t.Ok) (hEffects : t.effects ≠ []) : t.live = true := by
  unfold Thread.live
  cases hPhase : t.phase with
  | running => rfl
  | persisting r => rfl
  | reporting => rfl
  | ending => exact absurd (h.reported (by simp [hPhase]) (by simp [hPhase])) hEffects
  | finished => exact absurd (h.reported (by simp [hPhase]) (by simp [hPhase])) hEffects

/-- A thread with a worker is running. -/
theorem Ok.running_of_worker (h : t.Ok) {streamId : Nat} (hWorker : streamId ∈ t.workers) :
    t.phase = .running := by
  by_contra hPhase
  by_cases hFinished : t.phase = .finished
  · rw [(h.finished hFinished).2] at hWorker
    cases hWorker
  · have hActive := h.stopped hPhase hFinished
    cases h.request hFinished with
    | none _ hWorkers _ =>
      rw [hWorkers] at hWorker
      cases hWorker
    | working x hActive' _ _ =>
      rw [hActive] at hActive'
      cases hActive'
    | ended x hActive' _ _ =>
      rw [hActive] at hActive'
      cases hActive'

/-! ## Changes outside its loop -/

theorem Ok.push (h : t.Ok) {command : SessionCommand} (hCommand : command.finished? = none)
    (hOpen : t.phase ≠ .finished) : t.Same { t with queue := t.queue ++ [command] } where
  ok := by
    have hEnds : { t with queue := t.queue ++ [command] }.endings = t.endings := by
      simp [endings, List.filterMap_append, hCommand]
    refine ⟨fun _ => ?_, h.stopped, h.shutdown, h.reported, fun hPhase => absurd hPhase hOpen,
      h.snapshot⟩
    cases h.request hOpen with
    | none hActive hWorkers hNone => exact .none hActive hWorkers (hEnds.trans hNone)
    | working x hActive hWorkers hNone => exact .working x hActive hWorkers (hEnds.trans hNone)
    | ended x hActive hWorkers hOne => exact .ended x hActive hWorkers (hEnds.trans hOne)
  sessionId := rfl
  live := rfl
  shuttingDown := Or.imp_left fun hMem => List.mem_append_left _ hMem

/-- A list of effects or a set of subscribers changes. -/
theorem Ok.of_eq (h : t.Ok) (hPhase : t'.phase = t.phase) (hQueue : t'.queue = t.queue)
    (hActive : t'.activeRequests = t.activeRequests) (hWorkers : t'.workers = t.workers)
    (hShutdown : t'.shutdownRequested = t.shutdownRequested) (hSid : t'.sessionId = t.sessionId)
    (hEffects : t.effects = [] → t'.effects = []) (hSnapshot : t'.SnapshotOk) : t.Same t' where
  ok := by
    have hEnds : t'.endings = t.endings := by rw [endings, hQueue, endings]
    constructor
    · intro hOpen
      rw [hPhase] at hOpen
      cases h.request hOpen with
      | none hA hW hE => exact .none (hActive.trans hA) (hWorkers.trans hW) (hEnds.trans hE)
      | working x hA hW hE =>
        exact .working x (hActive.trans hA) (hWorkers.trans hW) (hEnds.trans hE)
      | ended x hA hW hE =>
        exact .ended x (hActive.trans hA) (hWorkers.trans hW) (hEnds.trans hE)
    · rw [hPhase, hActive]
      exact h.stopped
    · rw [hPhase, hActive, hShutdown]
      exact h.shutdown
    · rw [hPhase]
      exact fun hRunning hPersisting => hEffects (h.reported hRunning hPersisting)
    · rw [hPhase, hQueue, hWorkers]
      exact h.finished
    · exact hSnapshot
  sessionId := hSid
  live := by rw [live, live, hPhase]
  shuttingDown := by
    rw [ShuttingDown, ShuttingDown, hQueue, hShutdown, hPhase]
    exact id

/-- A worker ends: the end of its request goes to the queue. -/
theorem Ok.finishWorker (h : t.Ok) {streamId : Nat} (hWorker : streamId ∈ t.workers) :
    t.Same { t with
      workers := t.workers.erase streamId
      queue := t.queue ++ [.requestFinished streamId] } where
  ok := by
    have hRunning := h.running_of_worker hWorker
    refine ⟨fun _ => ?_, h.stopped, h.shutdown, h.reported, fun hPhase => ?_, h.snapshot⟩
    · cases h.request (by simp [hRunning]) with
      | none _ hWorkers _ =>
        rw [hWorkers] at hWorker
        cases hWorker
      | working x hActive hWorkers hEnds =>
        rw [hWorkers, List.mem_singleton] at hWorker
        subst hWorker
        refine .ended streamId hActive (by simp [hWorkers]) ?_
        rw [endings] at hEnds ⊢
        simp [List.filterMap_append, hEnds, SessionCommand.finished?]
      | ended x _ hWorkers _ =>
        rw [hWorkers] at hWorker
        cases hWorker
    · change t.phase = .finished at hPhase
      rw [hRunning] at hPhase
      cases hPhase
  sessionId := rfl
  live := rfl
  shuttingDown := Or.imp_left fun hMem => List.mem_append_left _ hMem

theorem Ok.refl (h : t.Ok) : t.Same t := h.of_eq rfl rfl rfl rfl rfl rfl id h.snapshot

theorem snapshotOk_nil (h : t.effects = []) : t.SnapshotOk := by
  intro c hMem
  rw [h] at hMem
  cases hMem

/-- The thread has written its record. -/
theorem Ok.written (h : t.Ok) {record : SessionRecord} (hPhase : t.phase = .persisting record)
    (hEffects : t.effects = []) : t.Same { t with phase := .reporting } where
  ok := by
    refine ⟨fun _ => ?_, fun _ _ => h.stopped (by simp [hPhase]) (by simp [hPhase]), ?_,
      fun _ _ => hEffects, ?_, snapshotOk_nil hEffects⟩
    · cases h.request (by simp [hPhase]) with
      | none hActive hWorkers hEnds => exact .none hActive hWorkers hEnds
      | working x hActive hWorkers hEnds => exact .working x hActive hWorkers hEnds
      | ended x hActive hWorkers hEnds => exact .ended x hActive hWorkers hEnds
    · intro hRunning
      cases hRunning
    · intro hFinished
      cases hFinished
  sessionId := rfl
  live := by rw [live, live, hPhase]
  shuttingDown := fun _ => .inr (.inr (by simp))

theorem ok_kill (t : Thread) : t.kill.Ok where
  request := fun h => absurd rfl h
  stopped := fun _ h => absurd rfl h
  shutdown := by
    intro h
    cases h
  reported := fun _ _ => rfl
  finished := fun _ => ⟨rfl, rfl⟩
  snapshot := snapshotOk_nil rfl

theorem same_kill (h : t.live = false) : t.Same t.kill :=
  ⟨ok_kill t, rfl, h.symm, fun _ => .inr (.inr (by simp [kill]))⟩

theorem ok_spawn (sessionId : Nat) (record : SessionRecord) (metadata : SessionMetadata) :
    (spawn sessionId record metadata).Ok where
  request := fun _ => .none rfl rfl rfl
  stopped := fun h => absurd rfl h
  shutdown := by
    intro _ h
    cases h
  reported := fun h => absurd rfl h
  finished := by
    intro h
    cases h
  snapshot := by
    intro c hMem
    simp [spawn] at hMem

/-! ## Its loop -/

/-- What a handler leaves alone. -/
structure Frame (t t' : Thread) : Prop where
  sessionId : t'.sessionId = t.sessionId
  queue : t'.queue = t.queue
  phase : t'.phase = t.phase
  shutdown : t.shutdownRequested = true → t'.shutdownRequested = true

theorem Frame.refl (t : Thread) : t.Frame t := ⟨rfl, rfl, rfl, id⟩

theorem frame_cancelOne (t : Thread) (streamId : Nat) :
    t.Frame (t.cancelOne streamId) ∧ (t.cancelOne streamId).activeRequests = t.activeRequests ∧
      (t.cancelOne streamId).workers = t.workers ∧
      (t.cancelOne streamId).shutdownRequested = t.shutdownRequested := by
  unfold cancelOne
  split <;> exact ⟨⟨rfl, rfl, rfl, id⟩, rfl, rfl, rfl⟩

theorem frame_cancel (ids : List Nat) (t : Thread) :
    t.Frame (ids.foldl cancelOne t) ∧ (ids.foldl cancelOne t).activeRequests = t.activeRequests ∧
      (ids.foldl cancelOne t).workers = t.workers ∧
      (ids.foldl cancelOne t).shutdownRequested = t.shutdownRequested := by
  induction ids generalizing t with
  | nil => exact ⟨Frame.refl t, rfl, rfl, rfl⟩
  | cons id rest ih =>
    obtain ⟨hFrame, hActive, hWorkers, hShutdown⟩ := frame_cancelOne t id
    obtain ⟨hFrame', hActive', hWorkers', hShutdown'⟩ := ih (t.cancelOne id)
    rw [List.foldl_cons]
    exact ⟨⟨hFrame'.sessionId.trans hFrame.sessionId, hFrame'.queue.trans hFrame.queue,
      hFrame'.phase.trans hFrame.phase, fun h => hFrame'.shutdown (hFrame.shutdown h)⟩,
      hActive'.trans hActive, hWorkers'.trans hWorkers, hShutdown'.trans hShutdown⟩

theorem frame_startRequest (t : Thread) : t.Frame t.startRequest := ⟨rfl, rfl, rfl, id⟩

theorem frame_processCommand (t : Thread) (env : ProcessEnv) (command : SessionCommand) :
    t.Frame (t.processCommand env command).1 ∧
      (command = .shutdown → (t.processCommand env command).1.shutdownRequested = true) := by
  cases command with
  | attach client => exact ⟨⟨rfl, rfl, rfl, id⟩, by simp⟩
  | detach client => exact ⟨⟨rfl, rfl, rfl, id⟩, by simp⟩
  | removeSubscriber client => exact ⟨⟨rfl, rfl, rfl, id⟩, by simp⟩
  | runInput =>
    refine ⟨?_, by simp⟩
    unfold processCommand handleRunInput
    dsimp only
    split
    · exact ⟨rfl, rfl, rfl, id⟩
    · exact frame_startRequest t
  | runChildInput =>
    refine ⟨?_, by simp⟩
    unfold processCommand handleRunChildInput
    dsimp only
    split
    · exact ⟨rfl, rfl, rfl, id⟩
    · exact frame_startRequest t
  | cancel streamId => exact ⟨(frame_cancel _ t).1, by simp⟩
  | requestFinished streamId => exact ⟨⟨rfl, rfl, rfl, id⟩, by simp⟩
  | broadcast => exact ⟨⟨rfl, rfl, rfl, id⟩, by simp⟩
  | statusChanged status => exact ⟨⟨rfl, rfl, rfl, id⟩, by simp⟩
  | edit => exact ⟨⟨rfl, rfl, rfl, id⟩, by simp⟩
  | shutdown =>
    obtain ⟨hFrame, -, -, hShutdown⟩ :=
      frame_cancel t.activeRequests { t with shutdownRequested := true }
    exact ⟨⟨hFrame.sessionId, hFrame.queue, hFrame.phase, fun _ => hShutdown⟩,
      fun _ => hShutdown⟩

/-- What a handled command leaves of the request, and when the thread stays. -/
structure Handled (t' : Thread) (leaves : Bool) : Prop where
  request : t'.RequestOk
  exit : leaves = true → t'.activeRequests = []
  stay : leaves = false → t'.shutdownRequested = true → t'.activeRequests ≠ []

theorem Handled.of_exits (hRequest : t'.RequestOk) : t'.Handled t'.exits where
  request := hRequest
  exit := by
    intro h
    simp only [exits, Bool.and_eq_true, List.isEmpty_iff] at h
    exact h.1
  stay := by
    intro h hShutdown hActive
    simp [exits, hActive, hShutdown] at h

section Loop

variable {command : SessionCommand} {rest : List SessionCommand}

theorem RequestOk.of_eq (h : t.RequestOk) (hActive : t'.activeRequests = t.activeRequests)
    (hWorkers : t'.workers = t.workers) (hEnds : t'.endings = t.endings) : t'.RequestOk := by
  cases h with
  | none hA hW hE => exact .none (hActive.trans hA) (hWorkers.trans hW) (hEnds.trans hE)
  | working x hA hW hE =>
    exact .working x (hActive.trans hA) (hWorkers.trans hW) (hEnds.trans hE)
  | ended x hA hW hE => exact .ended x (hActive.trans hA) (hWorkers.trans hW) (hEnds.trans hE)

theorem RequestOk.idle (h : t.RequestOk) (hActive : t.activeRequests = []) :
    t.workers = [] ∧ t.endings = [] := by
  cases h with
  | none _ hWorkers hEnds => exact ⟨hWorkers, hEnds⟩
  | working x hA _ _ =>
    rw [hActive] at hA
    cases hA
  | ended x hA _ _ =>
    rw [hActive] at hA
    cases hA

theorem Handled.stays (h : t.RequestOk) (hStay : t.shutdownRequested = true → t.activeRequests ≠ [])
    (hActive : t'.activeRequests = t.activeRequests) (hWorkers : t'.workers = t.workers)
    (hQueue : t'.queue = t.queue) (hShutdown : t'.shutdownRequested = t.shutdownRequested) :
    t'.Handled false where
  request := h.of_eq hActive hWorkers (by rw [endings, hQueue, endings])
  exit := by simp
  stay := by
    intro _ hRequested
    rw [hActive]
    exact hStay (hShutdown ▸ hRequested)

theorem Handled.startRequest (h : t.RequestOk) (hActive : t.activeRequests = [])
    (hShutdown : t.shutdownRequested = false) : t.startRequest.Handled false where
  request := by
    obtain ⟨hWorkers, hEnds⟩ := h.idle hActive
    refine .working t.nextStreamId ?_ ?_ hEnds
    · show t.activeRequests ++ [t.nextStreamId] = _
      rw [hActive]
      rfl
    · show t.workers ++ [t.nextStreamId] = _
      rw [hWorkers]
      rfl
  exit := by simp
  stay := by
    intro _ hRequested
    change t.shutdownRequested = true at hRequested
    rw [hShutdown] at hRequested
    cases hRequested

theorem idle_of_accepted {runnable : Bool}
    (h : ¬(!runnable || t.shutdownRequested || !t.activeRequests.isEmpty) = true) :
    t.activeRequests = [] := by
  simp only [Bool.or_eq_true, Bool.not_eq_true', not_or, Bool.not_eq_false,
    List.isEmpty_iff] at h
  exact h.2

theorem open_of_accepted {runnable : Bool}
    (h : ¬(!runnable || t.shutdownRequested || !t.activeRequests.isEmpty) = true) :
    t.shutdownRequested = false := by
  simp only [Bool.or_eq_true, not_or, Bool.not_eq_true] at h
  exact h.1.2

/-- The thread `t` has taken a command that is not the end of a request. -/
theorem handled_processCommand (h : t.RequestOk)
    (hStay : t.shutdownRequested = true → t.activeRequests ≠ []) (env : ProcessEnv)
    (hCommand : command.finished? = none) :
    (t.processCommand env command).1.Handled (t.processCommand env command).2 := by
  cases command with
  | attach client => exact Handled.stays h hStay rfl rfl rfl rfl
  | detach client => exact Handled.of_exits (h.of_eq rfl rfl rfl)
  | removeSubscriber client => exact Handled.of_exits (h.of_eq rfl rfl rfl)
  | runInput =>
    unfold processCommand handleRunInput
    dsimp only
    split
    · exact Handled.stays h hStay rfl rfl rfl rfl
    · rename_i hAccepted
      exact Handled.startRequest h (idle_of_accepted hAccepted) (open_of_accepted hAccepted)
  | runChildInput =>
    unfold processCommand handleRunChildInput
    dsimp only
    split
    · exact Handled.stays h hStay rfl rfl rfl rfl
    · rename_i hAccepted
      exact Handled.startRequest h (idle_of_accepted hAccepted) (open_of_accepted hAccepted)
  | cancel streamId =>
    obtain ⟨hFrame, hActive, hWorkers, hShutdown⟩ :=
      frame_cancel (if streamId = 0 then t.activeRequests else [streamId]) t
    exact Handled.stays h hStay hActive hWorkers hFrame.queue hShutdown
  | requestFinished streamId => cases hCommand
  | broadcast => exact Handled.stays h hStay rfl rfl rfl rfl
  | statusChanged status => exact Handled.stays h hStay rfl rfl rfl rfl
  | edit => exact Handled.stays h hStay rfl rfl rfl rfl
  | shutdown =>
    obtain ⟨hFrame, hActive, hWorkers, -⟩ :=
      frame_cancel t.activeRequests { t with shutdownRequested := true }
    have hEnds : t.handleShutdown.endings = t.endings := by
      rw [endings, handleShutdown, hFrame.queue, endings]
    refine ⟨h.of_eq hActive hWorkers hEnds, fun hExit => ?_, fun hExit _ => ?_⟩
    · exact hActive.trans (List.isEmpty_iff.mp hExit)
    · intro hNone
      have hIdle : t.activeRequests = [] := hActive.symm.trans hNone
      change t.activeRequests.isEmpty = false at hExit
      rw [hIdle] at hExit
      cases hExit

theorem handled_requestFinished {streamId : Nat} (hActive : t.activeRequests = [streamId])
    (hWorkers : t.workers = []) (hEnds : t.endings = []) (env : ProcessEnv) :
    (t.handleRequestFinished streamId env).Handled (t.handleRequestFinished streamId env).exits := by
  refine Handled.of_exits (.none ?_ hWorkers hEnds)
  show t.activeRequests.erase streamId = []
  rw [hActive, List.erase_cons_head]

/-! ## Snapshots -/

theorem snapshots_cancel (client : ClientId) (ids : List Nat) (t : Thread) :
    (ids.foldl cancelOne t).effects.countP (ThreadEffect.snapshots client) =
      t.effects.countP (ThreadEffect.snapshots client) := by
  induction ids generalizing t with
  | nil => rfl
  | cons id rest ih =>
    rw [List.foldl_cons, ih]
    unfold cancelOne
    split
    · simp [broadcast, List.countP_append, ThreadEffect.snapshots]
    · rfl

theorem snapshots_writeTurns (client : ClientId) (env : ProcessEnv) :
    env.writeTurns.countP (ThreadEffect.snapshots client) = 0 := by
  apply List.countP_eq_zero.mpr
  intro e he
  obtain ⟨x, -, rfl⟩ := List.mem_map.mp he
  simp [ThreadEffect.snapshots]

/-- Only an attach makes the thread send its snapshot. -/
theorem snapshots_processCommand (client : ClientId) (env : ProcessEnv) (command : SessionCommand)
    (hEffects : t.effects = []) :
    (t.processCommand env command).1.effects.countP (ThreadEffect.snapshots client) =
      if command = .attach client then 1 else 0 := by
  have hNone : ∀ effects : List ThreadEffect, t.effects ++ effects = effects := by
    intro effects
    rw [hEffects, List.nil_append]
  cases command with
  | attach c =>
    have hStarted : (t.activeRequests.map (ThreadEffect.sendStarted c)).countP
        (ThreadEffect.snapshots client) = 0 := by
      apply List.countP_eq_zero.mpr
      intro e he
      obtain ⟨x, -, rfl⟩ := List.mem_map.mp he
      simp [ThreadEffect.snapshots]
    simp only [processCommand, handleAttach, andThen, hNone,
      List.countP_append, hStarted, List.countP_singleton, ThreadEffect.snapshots]
    simp
  | detach c => simp [processCommand, handleDetach, andThen, hNone,
      ThreadEffect.snapshots]
  | removeSubscriber c => simp [processCommand, handleRemoveSubscriber, hEffects]
  | runInput =>
    simp only [processCommand, handleRunInput]
    split <;> simp [startRequest, nextStream, broadcast, hNone,
      ThreadEffect.snapshots]
  | runChildInput =>
    simp only [processCommand, handleRunChildInput]
    split <;> simp [startRequest, nextStream, broadcast, hEffects,
      ThreadEffect.snapshots]
  | cancel streamId =>
    simp only [processCommand, handleCancel, snapshots_cancel, hEffects]
    rfl
  | requestFinished streamId =>
    simp [processCommand, handleRequestFinished, andThen, broadcastStatus,
      hEffects, List.countP_append, snapshots_writeTurns, ThreadEffect.snapshots]
  | broadcast => simp [processCommand, broadcast, hNone, ThreadEffect.snapshots]
  | statusChanged status =>
    simp [processCommand, broadcastStatus, hNone, ThreadEffect.snapshots]
  | edit =>
    simp [processCommand, handleEdit, andThen, broadcast, hEffects,
      List.countP_append, snapshots_writeTurns, ThreadEffect.snapshots]
  | shutdown =>
    simp only [processCommand, handleShutdown, snapshots_cancel, hEffects]
    rfl

theorem snapshotOk_processCommand (env : ProcessEnv) (command : SessionCommand)
    (hEffects : t.effects = []) {c : ClientId}
    (hMem : .sendState c ∈ (t.processCommand env command).1.effects) :
    (t.processCommand env command).2 = false ∧ c ∈ (t.processCommand env command).1.subscribers ∧
      ∀ number, .broadcast number ∉ (t.processCommand env command).1.effects := by
  have hAttach : command = .attach c := by
    by_contra hNe
    have hCount := snapshots_processCommand c env command hEffects
    rw [if_neg hNe, List.countP_eq_zero] at hCount
    exact hCount _ hMem (by simp [ThreadEffect.snapshots])
  subst hAttach
  refine ⟨rfl, Finset.mem_insert_self _ _, fun number hBroadcast => ?_⟩
  simp [processCommand, handleAttach, andThen, hEffects] at hBroadcast

/-- A session thread takes a command. -/
theorem Ok.processNext (h : t.Ok) {env : ProcessEnv} (hNext : t.processNext env = some t') :
    t.Same t' := by
  unfold Thread.processNext at hNext
  split at hNext
  rotate_left
  · cases hNext
  rename_i command rest hPhase hEffects hQueue
  cases hNext
  have hRequest := h.request (by simp [hPhase])
  have hStay := h.shutdown hPhase
  obtain ⟨hFrame, hShutdown⟩ := frame_processCommand { t with queue := rest } env command
  have hHandled : ({ t with queue := rest }.processCommand env command).1.Handled
      ({ t with queue := rest }.processCommand env command).2 := by
    cases hFinished : command.finished? with
    | none =>
      have hEnds : { t with queue := rest }.endings = t.endings := by
        simp [endings, hQueue, hFinished]
      exact handled_processCommand
        (@RequestOk.of_eq t { t with queue := rest } hRequest rfl rfl hEnds) hStay env hFinished
    | some streamId =>
      obtain rfl : command = .requestFinished streamId := by
        cases command <;> simp [SessionCommand.finished?] at hFinished
        rw [hFinished]
      have hEnds : t.endings = streamId :: rest.filterMap SessionCommand.finished? := by
        simp [endings, hQueue, SessionCommand.finished?]
      cases hRequest with
      | none _ _ hNone =>
        rw [hEnds] at hNone
        cases hNone
      | working x _ _ hNone =>
        rw [hEnds] at hNone
        cases hNone
      | ended x hActive hWorkers hOne =>
        rw [hEnds] at hOne
        obtain ⟨rfl, hRest⟩ := List.cons.inj hOne
        exact @handled_requestFinished { t with queue := rest } streamId hActive hWorkers hRest env
  have hTold : t.ShuttingDown → .shutdown ∈ rest ∨
      ({ t with queue := rest }.processCommand env command).1.shutdownRequested = true := by
    rintro (hMem | hRequested | hStopped)
    · rw [hQueue] at hMem
      rcases List.mem_cons.mp hMem with rfl | hMem
      · exact .inr (hShutdown rfl)
      · exact .inl hMem
    · exact .inr (hFrame.shutdown hRequested)
    · exact absurd hPhase hStopped
  have hSnapshot : ∀ c, .sendState c ∈ ({ t with queue := rest }.processCommand env command).1.effects
      → _ := fun c => snapshotOk_processCommand (t := { t with queue := rest }) env command hEffects
  generalize hDone : { t with queue := rest }.processCommand env command = done
    at hFrame hHandled hTold hSnapshot ⊢
  have hRunning : done.1.phase = .running := hFrame.phase.trans hPhase
  cases hExit : done.2 with
  | true =>
    refine ⟨⟨fun _ => hHandled.request.of_eq rfl rfl rfl, fun _ _ => hHandled.exit hExit, ?_, ?_,
      ?_, fun c hMem => ?_⟩, hFrame.sessionId, ?_, fun _ => .inr (.inr (by simp))⟩
    · intro hPersisting
      cases hPersisting
    · intro _ hPersisting
      exact absurd rfl (hPersisting _)
    · intro hPersisting
      cases hPersisting
    · have hStays := (hSnapshot c hMem).1
      rw [hExit] at hStays
      cases hStays
    · rw [live_of_running hPhase]
      rfl
  | false =>
    refine ⟨⟨fun _ => hHandled.request, fun hStopped => absurd hRunning hStopped,
      fun _ => hHandled.stay hExit, fun hStopped => absurd hRunning hStopped, ?_,
      fun c hMem => ⟨hRunning, (hSnapshot c hMem).2⟩⟩, hFrame.sessionId, ?_, fun hShutting => ?_⟩
    · intro hFinished
      rw [if_neg (by simp), hRunning] at hFinished
      cases hFinished
    · rw [live_of_running hPhase]
      exact live_of_running hRunning
    · rcases hTold hShutting with hMem | hRequested
      · left
        show _ ∈ done.1.queue
        rw [hFrame.queue]
        exact hMem
      · exact .inr (.inl hRequested)

end Loop

end Thread

end Choreographr.Daemon
